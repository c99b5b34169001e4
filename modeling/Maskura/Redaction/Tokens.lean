import Maskura.Redaction.Spans

/-!
What the scans look for, said without them: an address is a maximal run of
bytes other than boundaries, and a number is a maximal run of digits, blanks and
dashes without what stands around its first and last digit. A scan for one kind
returns exactly the tokens of that kind. The combined scan returns every
address, and every number but those behind the `@` of an address.
-/

namespace Maskura.Redaction

open Lib.Run Lib.Scan

/-- A run of digits, blanks and dashes from its first to its last digit. -/
structure IsNumber (x : Bytes) (c d : ℕ) : Prop where
  lt : c < d
  first : holdsAt isAsciiDigit x c = true
  last : holdsAt isAsciiDigit x (d - 1) = true
  run : ∃ s e, IsRun isTokenByte x s e ∧ s ≤ c ∧ d ≤ e ∧
    (∀ k, s ≤ k → k < c → holdsAt isAsciiDigit x k = false) ∧
    ∀ k, d ≤ k → k < e → holdsAt isAsciiDigit x k = false

/-- A maximal run of bytes other than boundaries, with an `@` inside. -/
structure IsAddress (x : Bytes) (a b : ℕ) : Prop where
  run : IsRun isWordByte x a b
  inner : ∃ k, a < k ∧ k + 1 < b ∧ holdsAt isAt x k = true
  valid : isValidEmail (slice x a b) = true

/-- The stretch is a token of its kind. -/
def IsToken (x : Bytes) (span : Span) : Prop :=
  match span.kind with
  | .email => IsAddress x span.start span.stop
  | .card => IsNumber x span.start span.stop ∧
      isCardCandidate (slice x span.start span.stop) = true
  | .ssn => IsNumber x span.start span.stop ∧
      isSsnCandidate (slice x span.start span.stop) = true

variable {x : Bytes}

theorem isTokenByte_of_digit (c : UInt8) (h : isAsciiDigit c = true) : isTokenByte c = true := by
  simp [isTokenByte, h]

theorem not_token_of_isAt (c : UInt8) (h : isAt c = true) : isTokenByte c = false := by
  rw [isAt, beq_iff_eq] at h
  subst h
  decide

theorem isWordByte_of_isAt (c : UInt8) (h : isAt c = true) : isWordByte c = true := by
  rw [isAt, beq_iff_eq] at h
  subst h
  decide

/-! ### Numbers -/

namespace IsNumber

variable {c d c' d' : ℕ}

theorem holds (h : IsNumber x c d) : ∀ k, c ≤ k → k < d → holdsAt isTokenByte x k = true := by
  obtain ⟨s, e, hrun, hs, he, -, -⟩ := h.run
  exact fun k hk hkd => hrun.holds k (by omega) (by omega)

/-- Two numbers that meet are the same. -/
theorem unique (h : IsNumber x c d) (h' : IsNumber x c' d') (hcd : c < d') (hdc : c' < d) :
    c = c' ∧ d = d' := by
  have hlt := h.lt
  have hlt' := h'.lt
  have hlast := h.last
  have hlast' := h'.last
  obtain ⟨s, e, hrun, hs, he, hbefore, hafter⟩ := h.run
  obtain ⟨s', e', hrun', hs', he', hbefore', hafter'⟩ := h'.run
  obtain ⟨rfl, rfl⟩ := hrun.unique hrun' (by omega) (by omega)
  have hc : c = c' := by
    by_contra hne
    rcases Nat.lt_or_gt_of_ne hne with hcc | hcc
    · exact absurd h.first (by simp [hbefore' c hs hcc])
    · exact absurd h'.first (by simp [hbefore c' hs' hcc])
  have hd : d = d' := by
    by_contra hne
    rcases Nat.lt_or_gt_of_ne hne with hdd | hdd
    · exact absurd hlast' (by simp [hafter (d' - 1) (by omega) (by omega)])
    · exact absurd hlast (by simp [hafter' (d - 1) (by omega) (by omega)])
  exact ⟨hc, hd⟩

theorem no_at (h : IsNumber x c d) {k : ℕ} (hk : holdsAt isAt x k = true) : k < c ∨ d ≤ k := by
  by_contra hin
  have htoken := h.holds k (by omega) (by omega)
  rw [not_holdsAt_of_disjoint not_token_of_isAt hk] at htoken
  exact absurd htoken (by simp)

end IsNumber

/-- From a digit the code finds a number around it. -/
theorem exists_digitCandidate {i : ℕ} (hdigit : holdsAt isAsciiDigit x i = true) :
    ∃ c d, digitCandidate x i = some (c, d) ∧ c ≤ i ∧ i < d ∧ IsNumber x c d := by
  have hrun := isRun_at (holdsAt_mono isTokenByte_of_digit hdigit)
  set s := backWhile isTokenByte x 0 i with hs
  set e := onWhile isTokenByte x x.length i with he
  have hsi : s ≤ i := backWhile_le 0 i
  have hie : i < e := lt_onWhile (holdsAt_mono isTokenByte_of_digit hdigit)
  have hcount : (slice x s e).countP isAsciiDigit ≠ 0 := by
    obtain ⟨byte, hbyte, hp⟩ := holdsAt_eq_true.mp hdigit
    exact Nat.pos_iff_ne_zero.mp
      (List.countP_pos_iff.mpr ⟨byte, mem_slice.mpr ⟨i, hsi, hie, hbyte⟩, hp⟩)
  have hnot : ∀ k, k < e → holdsAt (fun c => !isAsciiDigit c) x k =
      !holdsAt isAsciiDigit x k := fun k hk =>
    holdsAt_not (lt_of_lt_of_le hk hrun.le_length)
  have hidig : holdsAt (fun c => !isAsciiDigit c) x i = false := by rw [hnot i hie, hdigit]; rfl
  set c := onWhile (fun c => !isAsciiDigit c) x e s with hc
  have hci : c ≤ i := by
    by_contra hlt
    rw [holdsAt_of_lt_onWhile hsi (show i < onWhile _ x e s by omega)] at hidig
    exact absurd hidig (by simp)
  have hsc : s ≤ c := le_onWhile e s
  set d := backWhile (fun c => !isAsciiDigit c) x c e with hd
  have hid : i < d := by
    by_contra hge
    rw [holdsAt_of_backWhile_le (show backWhile _ x c e ≤ i by omega) hie] at hidig
    exact absurd hidig (by simp)
  have hde : d ≤ e := backWhile_le c e
  refine ⟨c, d, ?_, hci, hid, by omega, ?_, ?_, s, e, hrun, hsc, hde, ?_, ?_⟩
  · rw [digitCandidate, if_pos hdigit, findDigitToken]
    simp only [← hs, ← he]
    rw [if_neg (by omega), if_neg hcount, Option.bind_some]
    simp only [← hc, ← hd]
    rw [if_neg (by omega)]
  · have hstop := onWhile_stops (show onWhile (fun c => !isAsciiDigit c) x e s < e by omega)
    rwa [← hc, hnot c (by omega), Bool.not_eq_false'] at hstop
  · have hd1 : d - 1 + 1 = backWhile (fun c => !isAsciiDigit c) x c e := by omega
    have hstop := backWhile_stops hd1 (by omega)
    rwa [hnot (d - 1) (by omega), Bool.not_eq_false'] at hstop
  · intro k hk hkc
    have := holdsAt_of_lt_onWhile hk (show k < onWhile _ x e s by omega)
    rwa [hnot k (by omega), Bool.not_eq_true'] at this
  · intro k hk hke
    have := holdsAt_of_backWhile_le (show backWhile _ x c e ≤ k by omega) hke
    rwa [hnot k hke, Bool.not_eq_true'] at this

/-- The number the code finds around a digit is the only one there. -/
theorem digitCandidate_eq_some {i c d : ℕ} :
    digitCandidate x i = some (c, d) ↔
      holdsAt isAsciiDigit x i = true ∧ c ≤ i ∧ i < d ∧ IsNumber x c d := by
  constructor
  · intro h
    have hdigit : holdsAt isAsciiDigit x i = true := by
      by_contra hno
      rw [digitCandidate, if_neg hno] at h
      exact absurd h (by simp)
    obtain ⟨c', d', heq, hci, hid, hnum⟩ := exists_digitCandidate hdigit
    rw [heq, Option.some.injEq, Prod.mk.injEq] at h
    obtain ⟨rfl, rfl⟩ := h
    exact ⟨hdigit, hci, hid, hnum⟩
  · rintro ⟨hdigit, hci, hid, hnum⟩
    obtain ⟨c', d', heq, hci', hid', hnum'⟩ := exists_digitCandidate hdigit
    obtain ⟨rfl, rfl⟩ := hnum.unique hnum' (by omega) (by omega)
    exact heq

/-! ### Addresses -/

theorem findEmailBoundary_eq_some {i s e : ℕ} (hat : holdsAt isAt x i = true) :
    findEmailBoundary x i = some (s, e) ↔ s < i ∧ i + 1 < e ∧ IsRun isWordByte x s e := by
  have hword := holdsAt_mono isWordByte_of_isAt hat
  have hrun := isRun_at hword
  have hback := @backWhile_le _ isWordByte x 0 i
  have hon := lt_onWhile hword
  -- the forward walk of the code begins behind the `@`
  rw [findEmailBoundary, ← onWhile_step (holdsAt_lt hat) hword]
  constructor
  · intro h
    split at h
    next hin =>
      obtain ⟨rfl, rfl⟩ := Prod.mk.inj (Option.some.inj h)
      exact ⟨hin.1, hin.2, hrun⟩
    next => cases h
  · rintro ⟨hs, he, hrun'⟩
    obtain ⟨rfl, rfl⟩ := hrun'.unique hrun (by omega) (by omega)
    exact if_pos ⟨hs, he⟩

theorem emailAt_eq_some {i : ℕ} {span : Span} :
    emailAt x i = some span ↔ holdsAt isAt x i = true ∧ span.start < i ∧ i + 1 < span.stop ∧
      span.kind = .email ∧ IsAddress x span.start span.stop := by
  by_cases hat : holdsAt isAt x i = true
  swap
  · simp [emailAt, hat]
  obtain ⟨start, stop, kind⟩ := span
  simp only [emailAt, hat, if_true, Option.bind_eq_some_iff, Prod.exists,
    findEmailBoundary_eq_some hat, Option.ite_none_right_eq_some, Option.some.injEq, Span.mk.injEq]
  constructor
  · rintro ⟨s, e, ⟨hs, he, hrun⟩, hvalid, rfl, rfl, rfl⟩
    exact ⟨trivial, hs, he, rfl, hrun, ⟨i, hs, he, hat⟩, hvalid⟩
  · rintro ⟨-, hs, he, rfl, haddr⟩
    exact ⟨start, stop, ⟨hs, he, haddr.run⟩, haddr.valid, rfl, rfl, rfl⟩

/-! ### The branches of the scans -/

/-- The positions at which a token is recognised. -/
def Recognised (x : Bytes) (span : Span) (i : ℕ) : Prop :=
  match span.kind with
  | .email => holdsAt isAt x i = true ∧ span.start < i ∧ i + 1 < span.stop
  | _ => holdsAt isAsciiDigit x i = true ∧ span.start ≤ i ∧ i < span.stop

theorem spanAt_eq_some {kind : PiiKind} {i : ℕ} {span : Span} :
    spanAt x kind i = some span ↔ span.kind = kind ∧ IsToken x span ∧ Recognised x span i := by
  obtain ⟨start, stop, kind'⟩ := span
  cases kind with
  | email =>
      rw [spanAt, emailAt_eq_some]
      constructor
      · rintro ⟨hat, hs, he, rfl, haddr⟩
        exact ⟨rfl, haddr, hat, hs, he⟩
      · rintro ⟨rfl, haddr, hat, hs, he⟩
        exact ⟨hat, hs, he, rfl, haddr⟩
  | card =>
      simp only [spanAt, cardAt, Option.bind_eq_some_iff, Prod.exists, digitCandidate_eq_some,
        Option.ite_none_right_eq_some, Option.some.injEq, Span.mk.injEq]
      constructor
      · rintro ⟨c, d, ⟨hdigit, hc, hd, hnum⟩, hcard, rfl, rfl, rfl⟩
        exact ⟨rfl, ⟨hnum, hcard⟩, hdigit, hc, hd⟩
      · rintro ⟨rfl, ⟨hnum, hcard⟩, hdigit, hc, hd⟩
        exact ⟨start, stop, ⟨hdigit, hc, hd, hnum⟩, hcard, rfl, rfl, rfl⟩
  | ssn =>
      simp only [spanAt, ssnAt, Option.bind_eq_some_iff, Prod.exists, digitCandidate_eq_some,
        Option.ite_none_right_eq_some, Option.some.injEq, Span.mk.injEq]
      constructor
      · rintro ⟨c, d, ⟨hdigit, hc, hd, hnum⟩, hssn, rfl, rfl, rfl⟩
        exact ⟨rfl, ⟨hnum, hssn⟩, hdigit, hc, hd⟩
      · rintro ⟨rfl, ⟨hnum, hssn⟩, hdigit, hc, hd⟩
        exact ⟨start, stop, ⟨hdigit, hc, hd, hnum⟩, hssn, rfl, rfl, rfl⟩

/-! ### Tokens -/

theorem card_ne_ssn {candidate : Bytes} (hcard : isCardCandidate candidate = true) :
    isSsnCandidate candidate = false := by
  simp only [isCardCandidate, Bool.and_eq_true, decide_eq_true_eq] at hcard
  rw [isSsnCandidate, Bool.eq_false_iff]
  simp only [Bool.and_eq_true, beq_iff_eq, ne_eq]
  omega

namespace IsToken

variable {span span' : Span}

theorem isAddress (h : IsToken x span) (hkind : span.kind = .email) :
    IsAddress x span.start span.stop := by
  simpa only [IsToken, hkind] using h

theorem isNumber (h : IsToken x span) (hkind : span.kind ≠ .email) :
    IsNumber x span.start span.stop := by
  obtain ⟨start, stop, kind⟩ := span
  cases kind with
  | email => exact absurd rfl hkind
  | card => exact h.1
  | ssn => exact h.1

theorem lt (h : IsToken x span) : span.start < span.stop := by
  by_cases hkind : span.kind = .email
  · exact (h.isAddress hkind).run.lt
  · exact (h.isNumber hkind).lt

/-- Two addresses that meet are the same, and so are two numbers. -/
theorem unique (h : IsToken x span) (h' : IsToken x span')
    (hkind : span.kind = .email ↔ span'.kind = .email)
    (hss : span.start < span'.stop) (hss' : span'.start < span.stop) : span = span' := by
  obtain ⟨start, stop, kind⟩ := span
  obtain ⟨start', stop', kind'⟩ := span'
  by_cases hemail : kind = .email
  · obtain rfl := hemail
    obtain rfl : kind' = .email := hkind.mp rfl
    obtain ⟨rfl, rfl⟩ := (h.isAddress rfl).run.unique (h'.isAddress rfl).run hss hss'
    rfl
  · obtain ⟨rfl, rfl⟩ := (h.isNumber hemail).unique
      (h'.isNumber fun hk => hemail (hkind.mpr hk)) hss hss'
    -- a number is not both a card and a social security number
    cases kind with
    | email => exact absurd rfl hemail
    | card =>
        cases kind' with
        | email => exact absurd (hkind.mpr rfl) hemail
        | card => rfl
        | ssn => exact absurd h'.2 (by simp [card_ne_ssn h.2])
    | ssn =>
        cases kind' with
        | email => exact absurd (hkind.mpr rfl) hemail
        | card => exact absurd h.2 (by simp [card_ne_ssn h'.2])
        | ssn => rfl

end IsToken

namespace Recognised

variable {span : Span} {i : ℕ}

theorem mem (h : Recognised x span i) : span.start ≤ i ∧ i < span.stop := by
  obtain ⟨start, stop, kind⟩ := span
  cases kind with
  | email => exact ⟨h.2.1.le, by have := h.2.2; omega⟩
  | card => exact h.2
  | ssn => exact h.2

theorem lt_length (h : Recognised x span i) : i < x.length := by
  obtain ⟨start, stop, kind⟩ := span
  cases kind with
  | email => exact holdsAt_lt h.1
  | card => exact holdsAt_lt h.1
  | ssn => exact holdsAt_lt h.1

/-- A number is recognised at each of its digits. -/
theorem of_digit (hkind : span.kind ≠ .email) (hdigit : holdsAt isAsciiDigit x i = true)
    (hstart : span.start ≤ i) (hstop : i < span.stop) : Recognised x span i := by
  obtain ⟨start, stop, kind⟩ := span
  cases kind with
  | email => exact absurd rfl hkind
  | card => exact ⟨hdigit, hstart, hstop⟩
  | ssn => exact ⟨hdigit, hstart, hstop⟩

theorem isAt (h : Recognised x span i) (hkind : span.kind = .email) :
    holdsAt isAt x i = true := by
  simp only [Recognised, hkind] at h
  exact h.1

end Recognised

theorem IsToken.recognised {span : Span} (h : IsToken x span) : ∃ i, Recognised x span i := by
  by_cases hkind : span.kind = .email
  · obtain ⟨i, hs, he, hat⟩ := (h.isAddress hkind).inner
    exact ⟨i, by simp only [Recognised, hkind]; exact ⟨hat, hs, he⟩⟩
  · have hnum := h.isNumber hkind
    exact ⟨span.start, .of_digit hkind hnum.first le_rfl hnum.lt⟩

/-! ### The scan for one kind -/

theorem spanAt_progress {kind : PiiKind} (i : ℕ) (span : Span)
    (h : spanAt x kind i = some span) : i < span.stop :=
  (spanAt_eq_some.mp h).2.2.mem.2

theorem mem_findSpans {kind : PiiKind} {span : Span} :
    span ∈ findSpans x kind ↔ span.kind = kind ∧ IsToken x span := by
  constructor
  · intro h
    obtain ⟨i, -, hi⟩ := hit_of_mem_scan h
    exact ⟨(spanAt_eq_some.mp hi).1, (spanAt_eq_some.mp hi).2.1⟩
  · rintro ⟨hkind, htoken⟩
    obtain ⟨i, hi⟩ := htoken.recognised
    rcases mem_scan_or_skipped spanAt_progress (Nat.le_add_left _ _) (Nat.zero_le i) hi.lt_length
      (spanAt_eq_some.mpr ⟨hkind, htoken, hi⟩) with hmem | ⟨k, other, hki, hk, hio, hmem⟩
    · exact hmem
    · obtain ⟨hkind', htoken', hk'⟩ := spanAt_eq_some.mp hk
      have hin := hi.mem
      have hin' := hk'.mem
      rwa [htoken.unique htoken' (by rw [hkind, hkind']) (by omega) (by omega)]

/-! ### The combined scan -/

/-- What the combined scan recognises at a position. -/
theorem anyAt_eq_some {i : ℕ} {span : Span} :
    (emailAt x i).or ((cardAt x i).or (ssnAt x i)) = some span ↔
      IsToken x span ∧ Recognised x span i := by
  have hspan : ∀ kind, spanAt x kind i = some span ↔
      span.kind = kind ∧ IsToken x span ∧ Recognised x span i := fun _ => spanAt_eq_some
  constructor
  · intro h
    rcases Option.or_eq_some_iff.mp h with h | ⟨-, h⟩
    · exact ((hspan .email).mp h).2
    rcases Option.or_eq_some_iff.mp h with h | ⟨-, h⟩
    · exact ((hspan .card).mp h).2
    · exact ((hspan .ssn).mp h).2
  · rintro ⟨htoken, hrec⟩
    -- what another branch recognises here would be the same token
    have hother : ∀ kind other, spanAt x kind i = some other →
        (span.kind = .email ↔ kind = .email) → kind = span.kind := by
      intro kind other hother hfamily
      obtain ⟨hkind, htoken', hrec'⟩ := spanAt_eq_some.mp hother
      have := hrec.mem
      have := hrec'.mem
      rw [← hkind, htoken.unique htoken' (by rw [hkind]; exact hfamily) (by omega) (by omega)]
    have hemail : span.kind ≠ .email → emailAt x i = none := by
      intro hkind
      by_contra hsome
      obtain ⟨other, hother⟩ := Option.ne_none_iff_exists'.mp hsome
      have hat := (emailAt_eq_some.mp hother).1
      rcases (htoken.isNumber hkind).no_at hat with hlt | hge <;>
        · have := hrec.mem
          omega
    match hkind : span.kind with
    | .email => exact Option.or_eq_some_iff.mpr (.inl ((hspan .email).mpr ⟨hkind, htoken, hrec⟩))
    | .card =>
        rw [hemail (by simp [hkind]), Option.none_or]
        exact Option.or_eq_some_iff.mpr (.inl ((hspan .card).mpr ⟨hkind, htoken, hrec⟩))
    | .ssn =>
        have hcard : cardAt x i = none := by
          by_contra hsome
          obtain ⟨other, hcard⟩ := Option.ne_none_iff_exists'.mp hsome
          exact absurd (hother .card other hcard (by simp [hkind])) (by simp [hkind])
        rw [hemail (by simp [hkind]), Option.none_or, hcard, Option.none_or]
        exact (hspan .ssn).mpr ⟨hkind, htoken, hrec⟩

theorem isToken_of_mem_findAllSpans {span : Span} (h : span ∈ findAllSpans x) :
    IsToken x span := by
  obtain ⟨i, -, hi⟩ := hit_of_mem_scan h
  exact (anyAt_eq_some.mp hi).1

/-- What the combined scan does with a token it recognises somewhere: it returns
it, or has returned an address whose `@` stands before. -/
theorem mem_findAllSpans_or_skipped {span : Span} {i : ℕ} (htoken : IsToken x span)
    (hi : Recognised x span i) :
    span ∈ findAllSpans x ∨ span.kind ≠ .email ∧
      ∃ address ∈ findAllSpans x, address.kind = .email ∧ address.start < span.start ∧
        i < address.stop := by
  rcases mem_scan_or_skipped (fun i span h => (anyAt_eq_some.mp h).2.mem.2)
    (Nat.le_add_left _ _) (Nat.zero_le i) hi.lt_length
    (anyAt_eq_some.mpr ⟨htoken, hi⟩) with hmem | ⟨k, other, hki, hk, hio, hmem⟩
  · exact .inl hmem
  obtain ⟨htoken', hk'⟩ := anyAt_eq_some.mp hk
  have hin := hi.mem
  have hin' := hk'.mem
  by_cases hfamily : span.kind = .email ↔ other.kind = .email
  · exact .inl (by rwa [htoken.unique htoken' hfamily (by omega) (by omega)])
  · by_cases hkind : span.kind = .email
    -- the `@` of an address stands in no number
    · have hnum := htoken'.isNumber fun hother => hfamily ⟨fun _ => hother, fun _ => hkind⟩
      rcases hnum.no_at (hi.isAt hkind) <;> omega
    · have hother : other.kind = .email := by
        by_contra hne
        exact hfamily ⟨fun h => absurd h hkind, fun h => absurd h hne⟩
      refine .inr ⟨hkind, other, hmem, hother, ?_, hio⟩
      rcases (htoken.isNumber hkind).no_at (hk'.isAt hother) <;> omega

theorem address_mem_findAllSpans {span : Span} (htoken : IsToken x span)
    (hkind : span.kind = .email) : span ∈ findAllSpans x := by
  obtain ⟨i, hi⟩ := htoken.recognised
  rcases mem_findAllSpans_or_skipped htoken hi with hmem | ⟨hne, -⟩
  · exact hmem
  · exact absurd hkind hne

/-- A number the combined scan leaves out lies in an address. -/
theorem number_mem_findAllSpans {span : Span} (htoken : IsToken x span)
    (hkind : span.kind ≠ .email) :
    span ∈ findAllSpans x ∨ ∃ address ∈ findAllSpans x, address.kind = .email ∧
      address.start < span.start ∧ span.stop ≤ address.stop := by
  have hnum := htoken.isNumber hkind
  have hlt := hnum.lt
  have hi := Recognised.of_digit hkind hnum.last (by omega) (by omega)
  rcases mem_findAllSpans_or_skipped htoken hi with hmem | ⟨-, address, hmem, ha, hs, he⟩
  · exact .inl hmem
  · exact .inr ⟨address, hmem, ha, hs, by omega⟩

end Maskura.Redaction
