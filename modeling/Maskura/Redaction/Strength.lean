import Maskura.Redaction.Replace

/-!
The combined pass against the filters for one kind. It hides what they hide
unless a number begins where an address begins, or reaches over an end of one:
then one of the two is passed over, and what only it covers stays in the text.
-/

namespace Maskura.Redaction

open Lib Lib.Run

/-- Every byte inside of a span that the scan for one kind returns lies inside
of a span that the combined pass replaces. -/
def HidesTokens (x : Bytes) : Prop :=
  ∀ kind, ∀ span ∈ findSpans x kind, ∀ k, span.start ≤ k → k < span.stop →
    ∃ replaced ∈ replacedSpans (findAllSpans x), replaced.start ≤ k ∧ k < replaced.stop

/-- Where an address and a number meet, the number lies in the address and does
not begin it. -/
def NumbersInside (x : Bytes) : Prop :=
  ∀ address number : Span, address.kind = .email → IsToken x address →
    number.kind ≠ .email → IsToken x number →
    address.start < number.stop → number.start < address.stop →
    address.start < number.start ∧ number.stop ≤ address.stop

variable {x : Bytes}

/-- A hidden span over the `@` of an address is that address. -/
theorem address_hidden_of_covered {address : Span} (htoken : IsToken x address)
    (hkind : address.kind = .email)
    (hcovered : ∀ k, address.start ≤ k → k < address.stop →
      ∃ span ∈ hiddenSpans x, span.start ≤ k ∧ k < span.stop) : address ∈ hiddenSpans x := by
  obtain ⟨k, hs, he, hat⟩ := (htoken.isAddress hkind).inner
  obtain ⟨span, hspan, hsk, hks⟩ := hcovered k (by omega) (by omega)
  have hspanToken := isToken_of_hidden hspan
  have hspanKind : span.kind = .email := by
    by_contra hne
    rcases (hspanToken.isNumber hne).no_at hat <;> omega
  rwa [htoken.unique hspanToken (by simp [hkind, hspanKind]) (by omega) (by omega)]

/-- A number that meets a hidden address and is covered lies in the address. -/
theorem number_inside_of_covered {address number : Span} (haddress : address ∈ hiddenSpans x)
    (hemail : address.kind = .email) (htoken : IsToken x number) (hkind : number.kind ≠ .email)
    (hstart : address.start < number.stop) (hstop : number.start < address.stop)
    (hcovered : ∀ k, number.start ≤ k → k < number.stop →
      ∃ span ∈ hiddenSpans x, span.start ≤ k ∧ k < span.stop) :
    address.start ≤ number.start ∧ number.stop ≤ address.stop := by
  have hrun := ((isToken_of_hidden haddress).isAddress hemail).run
  have hlt := hrun.lt
  -- the byte next to an end of the address is a boundary: only the number covers it, and both
  -- cannot be hidden
  have hedge : ∀ k, number.start ≤ k → k < number.stop → holdsAt isWordByte x k = true := by
    intro k hk hk'
    obtain ⟨span, hspan, hcover⟩ := hcovered k hk hk'
    by_cases hspanKind : span.kind = .email
    · exact ((isToken_of_hidden hspan).isAddress hspanKind).run.holds k hcover.1 hcover.2
    · obtain rfl := htoken.unique (isToken_of_hidden hspan) (by simp [hkind, hspanKind])
        (by omega) (by omega)
      have hmeet : ∃ j, (address.start ≤ j ∧ j < address.stop) ∧
          (number.start ≤ j ∧ j < number.stop) := by
        rcases Nat.le_total address.start number.start with h | h
        · exact ⟨number.start, by omega, by omega⟩
        · exact ⟨address.start, by omega, by omega⟩
      obtain ⟨j, hj, hj'⟩ := hmeet
      obtain rfl := hidden_unique haddress hspan hj hj'
      exact absurd hemail hkind
  exact hrun.contains hedge hstop hstart

theorem address_hidden_of_numbersInside (hinside : NumbersInside x) {address : Span}
    (htoken : IsToken x address) (hemail : address.kind = .email) : address ∈ hiddenSpans x := by
  rcases hidden_or_passed (address_mem_findAllSpans htoken hemail) with
    hmem | ⟨other, hmem, hbefore, hreach⟩
  · exact hmem
  have hother := isToken_of_hidden hmem
  have hlt := htoken.lt
  have hs : other.start ≤ address.start := by rcases hbefore with h | h <;> omega
  by_cases hkind : other.kind = .email
  · rwa [htoken.unique hother (by simp [hemail, hkind]) (by omega) (by omega)]
  · have := hinside address other hemail htoken hkind hother hreach (by omega)
    omega

/-- Where numbers lie inside of the addresses they meet, every token is hidden. -/
theorem covered_of_numbersInside (hinside : NumbersInside x) {span : Span} (htoken : IsToken x span)
    {k : ℕ} (hk : span.start ≤ k) (hk' : k < span.stop) :
    ∃ hidden ∈ hiddenSpans x, hidden.start ≤ k ∧ k < hidden.stop := by
  by_cases hemail : span.kind = .email
  · exact ⟨span, address_hidden_of_numbersInside hinside htoken hemail, hk, hk'⟩
  rcases number_mem_findAllSpans htoken hemail with hmem | ⟨address, hmem, hkind, hs, he⟩
  · rcases hidden_or_passed hmem with hhidden | ⟨other, hhidden, hbefore, hreach⟩
    · exact ⟨span, hhidden, hk, hk'⟩
    have hother := isToken_of_hidden hhidden
    have hlt := htoken.lt
    have hs : other.start ≤ span.start := by rcases hbefore with h | h <;> omega
    by_cases hkind : other.kind = .email
    · have := hinside other span hkind hother hemail htoken (by omega) hreach
      exact ⟨other, hhidden, by omega, by omega⟩
    · rw [← htoken.unique hother (by simp [hemail, hkind]) (by omega) (by omega)] at hhidden
      exact ⟨span, hhidden, hk, hk'⟩
  · exact ⟨address, address_hidden_of_numbersInside hinside (isToken_of_mem_findAllSpans hmem) hkind,
      by omega, by omega⟩

/-- The combined pass is as strong as the filters for one kind on exactly the
texts in which numbers that meet an address lie inside of it. -/
theorem hides_tokens_iff (x : Bytes) : HidesTokens x ↔ NumbersInside x := by
  constructor
  · intro hstrong address number hemail haddress hkind hnumber hstart hstop
    have hcovered : ∀ span, IsToken x span → ∀ k, span.start ≤ k → k < span.stop →
        ∃ replaced ∈ hiddenSpans x, replaced.start ≤ k ∧ k < replaced.stop :=
      fun span htoken => hstrong span.kind span (mem_findSpans.mpr ⟨rfl, htoken⟩)
    have hhidden := address_hidden_of_covered haddress hemail (hcovered _ haddress)
    obtain ⟨hle, hle'⟩ := number_inside_of_covered hhidden hemail hnumber hkind hstart hstop
      (hcovered _ hnumber)
    refine ⟨lt_of_le_of_ne hle fun heq => ?_, hle'⟩
    -- with one start the number comes first, and the address would be passed over
    have hlt := hnumber.lt
    have hlt' := haddress.lt
    have hfound : number ∈ findAllSpans x := by
      rcases number_mem_findAllSpans hnumber hkind with hmem | ⟨other, hmem, hother, hs, he⟩
      · exact hmem
      · obtain rfl := haddress.unique (isToken_of_mem_findAllSpans hmem) (by simp [hemail, hother])
          (by omega) (by omega)
        omega
    have hboth : ∀ other ∈ hiddenSpans x, other.start ≤ number.start → number.start < other.stop →
        other = address := fun other hother hs he =>
      hidden_unique hother hhidden ⟨hs, he⟩ ⟨hle, by omega⟩
    rcases hidden_or_passed hfound with hmem | ⟨other, hmem, hbefore, hreach⟩
    · obtain rfl := hboth number hmem le_rfl hlt
      exact hkind hemail
    · have hs : other.start ≤ number.start := by rcases hbefore with h | h <;> omega
      obtain rfl := hboth other hmem hs hreach
      obtain ⟨k, hk, hk', hat⟩ := (haddress.isAddress hemail).inner
      rcases (hnumber.isNumber hkind).no_at hat with h | h <;>
        rcases hbefore with hb | hb <;> omega
  · intro hinside kind span hspan k hk hk'
    exact covered_of_numbersInside hinside (mem_findSpans.mp hspan).2 hk hk'

def gluedCard : Bytes := utf8Bytes "a@b.c4111 1111 1111 1111"

/-- The card filter hides the card behind an address, the combined pass leaves
twelve of its digits in the text. -/
theorem glued_card_stays :
    ⟨5, 24, .card⟩ ∈ findSpans gluedCard .card ∧
      replacedSpans (findAllSpans gluedCard) = [⟨0, 9, .email⟩] ∧
      redactCards gluedCard = utf8Bytes "a@b.c" ++ PiiKind.card.marker ∧
      redactPii gluedCard = PiiKind.email.marker ++ utf8Bytes " 1111 1111 1111" ∧
      ¬ HidesTokens gluedCard := by
  have hcard : ⟨5, 24, .card⟩ ∈ findSpans gluedCard .card := by decide +kernel
  have hreplaced : replacedSpans (findAllSpans gluedCard) = [⟨0, 9, .email⟩] := by decide +kernel
  refine ⟨hcard, hreplaced, by decide +kernel, by decide +kernel, fun hstrong => ?_⟩
  obtain ⟨span, hspan, -, hlt⟩ := hstrong .card _ hcard 10 (by decide) (by decide)
  rw [hreplaced, List.mem_singleton] at hspan
  subst hspan
  exact absurd hlt (by decide)

end Maskura.Redaction
