import Mathlib.Tactic.IntervalCases
import Maskura.Backend.Expiry
import Maskura.Lib.Calendar

/-!
The times that the reader of signatures takes. The closed formula for the days counts
the days of the calendar one by one, and the order of the times is the order of the texts.
-/

namespace Maskura.Backend

open Maskura.Lib Maskura.Lib.Text

/-! ### Days of the calendar -/

theorem isLeap_iff (year : ℕ) : isLeap year ↔ 4 ∣ year ∧ ¬100 ∣ year ∨ 400 ∣ year := by
  simp only [isLeap, Bool.and_eq_true, Bool.or_eq_true, decide_eq_true_eq]
  omega

theorem monthDays_getD (year month : ℕ) (hmonth : 1 ≤ month ∧ month ≤ 12) :
    (monthDays year).getD (month - 1) 0 = Date.daysInMonth year month := by
  have hleap := isLeap_iff year
  obtain ⟨hge, hle⟩ := hmonth
  interval_cases month <;> simp [monthDays, Date.daysInMonth, hleap]

/-- A year that starts in March ends with the February of the next. -/
theorem daysBeforeMarch_eq (year : ℕ) :
    daysBeforeMarch year = daysBeforeMarch (year - 1) + (337 + Date.daysInMonth year 2) := by
  simp only [daysBeforeMarch, Date.daysInMonth]
  split <;> omega

/-- The number that the code computes for a date. -/
def civilDays (date : Date) : ℤ := daysFromCivil date.year date.month date.day

theorem civilDays_month_end (year month : ℕ) (hmonth : 1 ≤ month ∧ month < 12) :
    civilDays ⟨year, month + 1, 1⟩ =
      civilDays ⟨year, month, Date.daysInMonth year month⟩ + 1 := by
  have hfebruary := daysBeforeMarch_eq year
  obtain ⟨hge, hlt⟩ := hmonth
  simp only [civilDays, daysFromCivil_eq]
  by_cases htwo : month = 2
  · subst htwo
    norm_num
    omega
  · have hearly : month + 1 ≤ 2 ↔ month ≤ 2 := by omega
    simp only [hearly]
    interval_cases month <;> simp [Date.daysInMonth] at htwo ⊢ <;> omega

theorem civilDays_year_end (year : ℕ) :
    civilDays ⟨year + 1, 1, 1⟩ = civilDays ⟨year, 12, Date.daysInMonth year 12⟩ + 1 := by
  simp only [civilDays, daysFromCivil_eq, Date.daysInMonth]
  norm_num
  omega

theorem civilDays_next (date : Date) (h : date.Valid) :
    civilDays date.next = civilDays date + 1 := by
  obtain ⟨year, month, day⟩ := date
  obtain ⟨hmonth, -, hday⟩ := h
  obtain ⟨-, hnext⟩ | ⟨hlast, hlt, hnext⟩ | ⟨hlast, hge, hnext⟩ :=
    Date.next_cases ⟨year, month, day⟩ <;> rw [hnext]
  · simp only [civilDays, daysFromCivil_eq]
    push_cast
    omega
  · obtain rfl : day = Date.daysInMonth year month := Nat.le_antisymm hday hlast
    exact civilDays_month_end year month ⟨hmonth.1, hlt⟩
  · obtain rfl : day = Date.daysInMonth year month := Nat.le_antisymm hday hlast
    obtain rfl : month = 12 := Nat.le_antisymm hmonth.2 hge
    exact civilDays_year_end year

def epoch : Date := ⟨1970, 1, 1⟩

theorem epoch_valid : epoch.Valid := ⟨by decide, by decide⟩

/-! ### The parts of a time -/

namespace DateFields

def date (fields : DateFields) : Date := ⟨fields.year, fields.month, fields.day⟩

def secondOfDay (fields : DateFields) : ℕ :=
  fields.hour * 3600 + fields.minute * 60 + fields.second

/-- The numbers of a time that is taken. -/
structure Regular (fields : DateFields) : Prop where
  date : fields.date.Valid
  epoch : 0 ≤ civilDays fields.date
  hour : fields.hour ≤ 23
  minute : fields.minute ≤ 59
  second : fields.second ≤ 59

theorem Regular.secondOfDay_lt {fields : DateFields} (h : fields.Regular) :
    fields.secondOfDay < 86400 := by
  obtain ⟨-, -, hhour, hminute, hsecond⟩ := h
  unfold secondOfDay
  omega

end DateFields

theorem parseTimestamp_regular {value : Text} {time : ℕ} (h : parseTimestamp value = some time) :
    ∃ fields, Spells digitPair value fields ∧ fields.Regular ∧
      time = fromSecs (86400 * (civilDays fields.date).toNat + fields.secondOfDay) := by
  obtain ⟨fields, hspells, hrange, hnine, hexists, hsecond, rfl⟩ := parseTimestamp_eq_some.mp h
  have hyear : 1970 ≤ fields.year := by
    obtain hyear | rfl := hrange.year
    · exact hyear
    · exact absurd hsecond (by decide)
  have hepoch : 0 ≤ civilDays fields.date := daysFromCivil_nonneg hrange.month hrange.day hyear
  have hdate : fields.date.Valid :=
    ⟨hrange.month, hrange.day.1, (monthDays_getD _ _ hrange.month).symm ▸ hexists⟩
  refine ⟨fields, spells_digitPair_iff.mpr ⟨hspells, hnine⟩,
    ⟨hdate, hepoch, hrange.hour, hrange.minute, hsecond⟩, congrArg fromSecs ?_⟩
  have hseconds : fields.seconds = 86400 * civilDays fields.date + fields.secondOfDay := by
    simp only [DateFields.seconds, civilDays, DateFields.date, DateFields.secondOfDay]
    push_cast
    ring
  omega

/-! ### The order of texts -/

section Order

variable {a b : List UInt8} {index m n : ℕ}

theorem digitPair_drop (h : digitPair a index = some n) :
    ∃ high low : UInt8, a.drop index = high :: low :: a.drop (index + 2) ∧
      n = (high.toNat - 48) * 10 + (low.toNat - 48) ∧ 48 ≤ high.toNat ∧ high.toNat < 58 ∧
      48 ≤ low.toNat ∧ low.toNat < 58 := by
  simp only [digitPair, Option.bind_eq_bind, Option.bind_eq_some_iff, Option.guard_eq_some',
    Option.some.injEq] at h
  obtain ⟨high, hhigh, low, hlow, -, hzero, -, hnine, rfl⟩ := h
  obtain ⟨hlt, rfl⟩ := List.getElem?_eq_some_iff.mp hhigh
  obtain ⟨hlt', rfl⟩ := List.getElem?_eq_some_iff.mp hlow
  refine ⟨_, _, ?_, rfl, by omega⟩
  rw [List.drop_eq_getElem_cons hlt, List.drop_eq_getElem_cons hlt']

theorem digitPair_lt (h : digitPair a index = some n) : n < 100 := by
  obtain ⟨high, low, -, rfl, hbounds⟩ := digitPair_drop h
  omega

/-- Two texts are compared at a pair of digits, and behind it only if the pairs are the same. -/
theorem drop_lt_drop_of_digitPair (ha : digitPair a index = some m) (hb : digitPair b index = some n) :
    a.drop index < b.drop index ↔ m < n ∨ m = n ∧ a.drop (index + 2) < b.drop (index + 2) := by
  obtain ⟨high, low, hdrop, rfl, hbounds⟩ := digitPair_drop ha
  obtain ⟨high', low', hdrop', rfl, hbounds'⟩ := digitPair_drop hb
  rw [hdrop, hdrop', List.cons_lt_cons_iff, List.cons_lt_cons_iff, UInt8.lt_iff_toNat_lt,
    UInt8.lt_iff_toNat_lt, ← UInt8.toNat_inj, ← UInt8.toNat_inj]
  by_cases hrest : a.drop (index + 2) < b.drop (index + 2) <;>
    simp only [hrest, and_true, and_false, or_false] <;> omega

theorem drop_lt_drop_of_getElem? {byte : UInt8} (ha : a[index]? = some byte)
    (hb : b[index]? = some byte) :
    a.drop index < b.drop index ↔ a.drop (index + 1) < b.drop (index + 1) := by
  obtain ⟨hlt, ha⟩ := List.getElem?_eq_some_iff.mp ha
  obtain ⟨hlt', hb⟩ := List.getElem?_eq_some_iff.mp hb
  rw [List.drop_eq_getElem_cons hlt, List.drop_eq_getElem_cons hlt', ha, hb, List.cons_lt_cons_iff]
  simp

end Order

/-- The fields stand in a time from the largest to the smallest. -/
theorem bytes_lt_iff {a b : Text} {fields other : DateFields} (ha : Spells digitPair a fields)
    (hb : Spells digitPair b other) :
    a.flatMap String.utf8EncodeChar < b.flatMap String.utf8EncodeChar ↔
      fields.year < other.year ∨ fields.year = other.year ∧
      (fields.month < other.month ∨ fields.month = other.month ∧
      (fields.day < other.day ∨ fields.day = other.day ∧
      (fields.hour < other.hour ∨ fields.hour = other.hour ∧
      (fields.minute < other.minute ∨ fields.minute = other.minute ∧
      fields.second < other.second)))) := by
  obtain ⟨⟨hlength, hT, hZ⟩, ⟨century, rest, hcentury, hrest, hyear⟩, hmonth, hday, hhour, hminute,
    hsecond⟩ := ha
  obtain ⟨⟨hlength', hT', hZ'⟩, ⟨century', rest', hcentury', hrest', hyear'⟩, hmonth', hday', hhour',
    hminute', hsecond'⟩ := hb
  have hstart := drop_lt_drop_of_digitPair hcentury hcentury'
  rw [List.drop_zero, List.drop_zero, Nat.zero_add, drop_lt_drop_of_digitPair hrest hrest',
    drop_lt_drop_of_digitPair hmonth hmonth', drop_lt_drop_of_digitPair hday hday',
    drop_lt_drop_of_getElem? hT hT', drop_lt_drop_of_digitPair hhour hhour',
    drop_lt_drop_of_digitPair hminute hminute', drop_lt_drop_of_digitPair hsecond hsecond',
    drop_lt_drop_of_getElem? hZ hZ', List.drop_of_length_le hlength.le,
    List.drop_of_length_le hlength'.le] at hstart
  have hyears : fields.year < other.year ↔ century < century' ∨ century = century' ∧ rest < rest' := by
    have hlt := digitPair_lt hrest
    have hlt' := digitPair_lt hrest'
    omega
  have hsame : fields.year = other.year ↔ century = century' ∧ rest = rest' := by
    have hlt := digitPair_lt hrest
    have hlt' := digitPair_lt hrest'
    omega
  rw [hstart, hyears, hsame, or_assoc, and_assoc, ← and_or_left]
  simp only [List.not_lt_nil, and_false, or_false]

/-- The order of the counted seconds is the order of the fields. -/
theorem seconds_lt_iff {fields other : DateFields} (h : fields.Regular) (h' : other.Regular) :
    86400 * (civilDays fields.date).toNat + fields.secondOfDay <
        86400 * (civilDays other.date).toNat + other.secondOfDay ↔
      fields.date.key < other.date.key ∨ fields.date.key = other.date.key ∧
        fields.secondOfDay < other.secondOfDay := by
  have hlt := Date.count_lt_count_iff civilDays_next h.date h'.date
  have hgt := Date.count_lt_count_iff civilDays_next h'.date h.date
  have hday := h.secondOfDay_lt
  have hday' := h'.secondOfDay_lt
  have hepoch := h.epoch
  have hepoch' := h'.epoch
  omega

/-- Times are ordered as their texts are, and a time is the days of the calendar since
the epoch and the seconds of its day. -/
theorem parseTimestamp_ordered {a b : Text} {s t : ℕ} (ha : parseTimestamp a = some s)
    (hb : parseTimestamp b = some t) :
    (s < t ↔ a.flatMap String.utf8EncodeChar < b.flatMap String.utf8EncodeChar) ∧
      ∃ fields days, Spells digitPair a fields ∧
        (∀ n, Date.next^[n] epoch = fields.date ↔ n = days) ∧
        s = fromSecs (86400 * days + fields.secondOfDay) := by
  obtain ⟨fields, hspells, hregular, rfl⟩ := parseTimestamp_regular ha
  obtain ⟨other, hspells', hregular', rfl⟩ := parseTimestamp_regular hb
  constructor
  · rw [bytes_lt_iff hspells hspells', fromSecs, fromSecs,
      Nat.mul_lt_mul_right (by decide), seconds_lt_iff hregular hregular']
    obtain ⟨⟨hmonth, hday⟩, -, hhour, hminute, hsecond⟩ := hregular
    obtain ⟨⟨hmonth', hday'⟩, -, hhour', hminute', hsecond'⟩ := hregular'
    have hbound := (Date.daysInMonth_bounds fields.year fields.month).2
    have hbound' := (Date.daysInMonth_bounds other.year other.month).2
    simp only [DateFields.date, Date.key, DateFields.secondOfDay] at *
    omega
  · refine ⟨fields, (civilDays fields.date).toNat, hspells, fun n => ?_, rfl⟩
    have hepoch := hregular.epoch
    have hzero : civilDays epoch = 0 := by decide
    rw [Date.iterate_next_eq_iff civilDays_next epoch_valid hregular.date, hzero]
    omega

/-- The last second of a leap day. -/
theorem leap_day_before_march :
    parseTimestamp "20240229T235959Z".toList = some (fromSecs 1709251199) ∧
      parseTimestamp "20240301T000000Z".toList = some (fromSecs 1709251200) ∧
      "20240229T235959Z".toList.flatMap String.utf8EncodeChar <
        "20240301T000000Z".toList.flatMap String.utf8EncodeChar := by
  have ha : parseTimestamp "20240229T235959Z".toList = some (fromSecs 1709251199) := by decide
  have hb : parseTimestamp "20240301T000000Z".toList = some (fromSecs 1709251200) := by decide
  exact ⟨ha, hb, (parseTimestamp_ordered ha hb).1.mp (by decide)⟩

end Maskura.Backend
