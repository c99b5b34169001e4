import Maskura.Backend.Endpoint

/-!
The two readers of `X-Amz-Date`. The check of a presigned URL's expiry counts the
bytes of a field from `0` and takes any day up to the 31st; the check of a signature
wants digits and a day that the month has. Behind that they compute the same time.
-/

namespace Maskura.Backend

open Maskura.Lib Maskura.Lib.Text
open Maskura.Iceberg (parseU64)

/-! ### The reader of signatures -/

/-- Two bytes as a two-digit number, when both are digits. -/
def digitPair (bytes : List UInt8) (index : ℕ) : Option ℕ := do
  let high ← bytes[index]?
  let low ← bytes[index + 1]?
  guard (48 ≤ high.toNat ∧ 48 ≤ low.toNat)
  guard (high.toNat - 48 < 10 ∧ low.toNat - 48 < 10)
  some ((high.toNat - 48) * 10 + (low.toNat - 48))

def isLeap (year : ℕ) : Bool :=
  year % 4 = 0 && (year % 100 ≠ 0 || year % 400 = 0)

def monthDays (year : ℕ) : List ℕ :=
  [31, if isLeap year then 29 else 28, 31, 30, 31, 30, 31, 31, 30, 31, 30, 31]

def parseTimestamp (value : Text) : Option ℕ := do
  let bytes := value.flatMap String.utf8EncodeChar
  guard (bytes.length = 16 ∧ bytes[8]? = some 'T'.toUInt8 ∧ bytes[15]? = some 'Z'.toUInt8)
  let year := (← digitPair bytes 0) * 100 + (← digitPair bytes 2)
  let month ← digitPair bytes 4
  let day ← digitPair bytes 6
  let hour ← digitPair bytes 9
  let minute ← digitPair bytes 11
  let second ← digitPair bytes 13
  guard (1 ≤ month ∧ month ≤ 12 ∧ day ≠ 0 ∧ day ≤ (monthDays year).getD (month - 1) 0 ∧
    hour ≤ 23 ∧ minute ≤ 59 ∧ second ≤ 59)
  let seconds := daysFromCivil year month day * 86400 + hour * 3600 + minute * 60 + second
  guard (0 ≤ seconds)
  some (fromSecs seconds.toNat)

/-! ### The fields of a text -/

/-- The numbers that stand in a time. -/
structure DateFields where
  year : ℕ
  month : ℕ
  day : ℕ
  hour : ℕ
  minute : ℕ
  second : ℕ

/-- The text has the form of a time, and its pairs of bytes are read as these numbers. -/
structure Spells (pair : List UInt8 → ℕ → Option ℕ) (value : Text) (fields : DateFields) : Prop where
  form : (value.flatMap String.utf8EncodeChar).length = 16 ∧
    (value.flatMap String.utf8EncodeChar)[8]? = some 'T'.toUInt8 ∧
    (value.flatMap String.utf8EncodeChar)[15]? = some 'Z'.toUInt8
  year : ∃ century rest, pair (value.flatMap String.utf8EncodeChar) 0 = some century ∧
    pair (value.flatMap String.utf8EncodeChar) 2 = some rest ∧ fields.year = century * 100 + rest
  month : pair (value.flatMap String.utf8EncodeChar) 4 = some fields.month
  day : pair (value.flatMap String.utf8EncodeChar) 6 = some fields.day
  hour : pair (value.flatMap String.utf8EncodeChar) 9 = some fields.hour
  minute : pair (value.flatMap String.utf8EncodeChar) 11 = some fields.minute
  second : pair (value.flatMap String.utf8EncodeChar) 13 = some fields.second

/-- No byte at the place of a digit is behind `9`. -/
def NoByteBehindNine (value : Text) : Prop :=
  ∀ index ∈ [0, 2, 4, 6, 9, 11, 13], ∀ byte, byte ∈ (value.flatMap String.utf8EncodeChar)[index]? ∨
    byte ∈ (value.flatMap String.utf8EncodeChar)[index + 1]? → byte.toNat ≤ 57

/-- What the expiry check asks of the numbers. The first time is the epoch, or the
leap second before it. -/
structure DateFields.InRange (fields : DateFields) : Prop where
  month : 1 ≤ fields.month ∧ fields.month ≤ 12
  day : 1 ≤ fields.day ∧ fields.day ≤ 31
  hour : fields.hour ≤ 23
  minute : fields.minute ≤ 59
  second : fields.second ≤ 60
  year : 1970 ≤ fields.year ∨ fields = ⟨1969, 12, 31, 23, 59, 60⟩

/-- The month has the day. -/
def DateFields.DayExists (fields : DateFields) : Prop :=
  fields.day ≤ (monthDays fields.year).getD (fields.month - 1) 0

/-- The seconds since the epoch. -/
def DateFields.seconds (fields : DateFields) : ℤ :=
  daysFromCivil fields.year fields.month fields.day * 86400 + fields.hour * 3600 +
    fields.minute * 60 + fields.second

/-! ### Days since the epoch -/

/-- The days of the years before `a`, for years that start in March. -/
def daysBeforeMarch (a : ℤ) : ℤ :=
  a / 400 * 146097 +
    ((a - a / 400 * 400) * 365 + (a - a / 400 * 400) / 4 - (a - a / 400 * 400) / 100)

theorem daysBeforeMarch_le (a : ℤ) :
    (a ≤ 1968 → daysBeforeMarch a ≤ 718797) ∧ (a ≤ 1969 → daysBeforeMarch a ≤ 719162) := by
  unfold daysBeforeMarch
  omega

theorem le_daysBeforeMarch (a : ℤ) :
    (1969 ≤ a → 719162 ≤ daysBeforeMarch a) ∧ (1970 ≤ a → 719527 ≤ daysBeforeMarch a) := by
  unfold daysBeforeMarch
  omega

/-- The division that rounds towards zero, shifted for years before the first, is the
one that rounds down. -/
theorem era_eq (a : ℤ) : (if 0 ≤ a then a else a - 399).tdiv 400 = a / 400 := by
  split
  · exact Int.tdiv_eq_ediv_of_nonneg ‹_›
  · rw [Int.tdiv_eq_ediv]
    split
    · omega
    · change (a - 399) / 400 + 1 = a / 400
      omega

theorem daysFromCivil_eq (year month day : ℕ) :
    daysFromCivil year month day = daysBeforeMarch (if month ≤ 2 then year - 1 else year) +
      ((153 * ((month + 9) % 12) + 2) / 5 + day - 1) - 719468 := by
  have hmonth : (month : ℤ) ≤ 2 ↔ month ≤ 2 := by omega
  simp only [daysFromCivil, era_eq, daysBeforeMarch, hmonth]
  ring

theorem daysFromCivil_nonneg {year month day : ℕ} (hmonth : 1 ≤ month ∧ month ≤ 12)
    (hday : 1 ≤ day ∧ day ≤ 31) (hyear : 1970 ≤ year) : 0 ≤ daysFromCivil year month day := by
  rw [daysFromCivil_eq]
  by_cases hearly : month ≤ 2
  · rw [if_pos hearly]
    have hge := le_daysBeforeMarch (year - 1)
    omega
  · rw [if_neg hearly]
    have hge := le_daysBeforeMarch year
    omega

/-- The last day before the epoch is the only one that is one day before it. -/
theorem daysFromCivil_neg {year month day : ℕ} (hmonth : 1 ≤ month ∧ month ≤ 12)
    (hday : 1 ≤ day ∧ day ≤ 31) (hyear : year < 1970) :
    daysFromCivil year month day ≤ -1 ∧
      (daysFromCivil year month day = -1 → year = 1969 ∧ month = 12 ∧ day = 31) := by
  rw [daysFromCivil_eq]
  by_cases hearly : month ≤ 2
  · rw [if_pos hearly]
    have hle := daysBeforeMarch_le (year - 1)
    omega
  · rw [if_neg hearly]
    have hle := daysBeforeMarch_le year
    omega

theorem DateFields.seconds_nonneg_iff {fields : DateFields}
    (hmonth : 1 ≤ fields.month ∧ fields.month ≤ 12) (hday : 1 ≤ fields.day ∧ fields.day ≤ 31)
    (hhour : fields.hour ≤ 23) (hminute : fields.minute ≤ 59) (hsecond : fields.second ≤ 60) :
    0 ≤ fields.seconds ↔ 1970 ≤ fields.year ∨ fields = ⟨1969, 12, 31, 23, 59, 60⟩ := by
  constructor
  · intro hseconds
    by_cases hyear : 1970 ≤ fields.year
    · exact .inl hyear
    · obtain ⟨hle, hlast⟩ := daysFromCivil_neg hmonth hday (Nat.lt_of_not_le hyear)
      unfold seconds at hseconds
      obtain ⟨hy, hm, hd⟩ := hlast (by omega)
      have hh : fields.hour = 23 ∧ fields.minute = 59 ∧ fields.second = 60 := by omega
      cases fields
      simp_all
  · rintro (hyear | rfl)
    · have := daysFromCivil_nonneg hmonth hday hyear
      unfold seconds
      omega
    · decide

/-! ### The two readers -/

section Readers

variable {pair : List UInt8 → ℕ → Option ℕ} {value : Text} {fields : DateFields} {time : ℕ}

theorem Spells.unique {other : DateFields} (h : Spells pair value fields)
    (h' : Spells pair value other) : fields = other := by
  obtain ⟨century, rest, hcentury, hrest, hyear⟩ := h.year
  obtain ⟨century', rest', hcentury', hrest', hyear'⟩ := h'.year
  obtain rfl := Option.some.inj (hcentury.symm.trans hcentury')
  obtain rfl := Option.some.inj (hrest.symm.trans hrest')
  have hmonth := Option.some.inj (h.month.symm.trans h'.month)
  have hday := Option.some.inj (h.day.symm.trans h'.day)
  have hhour := Option.some.inj (h.hour.symm.trans h'.hour)
  have hminute := Option.some.inj (h.minute.symm.trans h'.minute)
  have hsecond := Option.some.inj (h.second.symm.trans h'.second)
  cases fields
  cases other
  simp_all

/-- What both readers do: read the pairs, look at the numbers, count the seconds. -/
def readTime (pair : List UInt8 → ℕ → Option ℕ) (accepts : DateFields → Prop)
    [DecidablePred accepts] (value : Text) : Option ℕ := do
  let bytes := value.flatMap String.utf8EncodeChar
  guard (bytes.length = 16 ∧ bytes[8]? = some 'T'.toUInt8 ∧ bytes[15]? = some 'Z'.toUInt8)
  let year := (← pair bytes 0) * 100 + (← pair bytes 2)
  let month ← pair bytes 4
  let day ← pair bytes 6
  let hour ← pair bytes 9
  let minute ← pair bytes 11
  let second ← pair bytes 13
  guard (accepts ⟨year, month, day, hour, minute, second⟩)
  let seconds := daysFromCivil year month day * 86400 + hour * 3600 + minute * 60 + second
  guard (0 ≤ seconds)
  some (fromSecs seconds.toNat)

theorem readTime_eq_some {accepts : DateFields → Prop} [DecidablePred accepts] :
    readTime pair accepts value = some time ↔
      ∃ fields, Spells pair value fields ∧ accepts fields ∧ 0 ≤ fields.seconds ∧
        fromSecs fields.seconds.toNat = time := by
  simp only [readTime, Option.bind_eq_bind, Option.bind_eq_some_iff, Option.guard_eq_some',
    Option.some.injEq]
  constructor
  · rintro ⟨-, hform, century, hcentury, rest, hrest, month, hmonth, day, hday, hour, hhour, minute,
      hminute, second, hsecond, -, haccepts, -, hepoch, htime⟩
    exact ⟨⟨century * 100 + rest, month, day, hour, minute, second⟩, ⟨hform, ⟨century, rest, hcentury,
      hrest, rfl⟩, hmonth, hday, hhour, hminute, hsecond⟩, haccepts, hepoch, htime⟩
  · rintro ⟨⟨_, month, day, hour, minute, second⟩, ⟨hform, ⟨century, rest, hcentury, hrest, rfl⟩,
      hmonth, hday, hhour, hminute, hsecond⟩, haccepts, hepoch, htime⟩
    exact ⟨(), hform, century, hcentury, rest, hrest, month, hmonth, day, hday, hour, hhour, minute,
      hminute, second, hsecond, (), haccepts, (), hepoch, htime⟩

theorem parseAmzTimestamp_eq_some :
    parseAmzTimestamp value = some time ↔
      ∃ fields, Spells bytePair value fields ∧ fields.InRange ∧
        fromSecs fields.seconds.toNat = time := by
  have hread : parseAmzTimestamp value = readTime bytePair (fun fields =>
      1 ≤ fields.month ∧ fields.month ≤ 12 ∧ 1 ≤ fields.day ∧ fields.day ≤ 31 ∧ fields.hour ≤ 23 ∧
        fields.minute ≤ 59 ∧ fields.second ≤ 60) value := rfl
  rw [hread, readTime_eq_some]
  refine exists_congr fun fields => and_congr_right fun _ => ?_
  constructor
  · rintro ⟨⟨hm, hm', hd, hd', hh, hmin, hs⟩, hepoch, htime⟩
    exact ⟨⟨⟨hm, hm'⟩, ⟨hd, hd'⟩, hh, hmin, hs,
      (DateFields.seconds_nonneg_iff ⟨hm, hm'⟩ ⟨hd, hd'⟩ hh hmin hs).mp hepoch⟩, htime⟩
  · rintro ⟨⟨hm, hd, hh, hmin, hs, hyear⟩, htime⟩
    exact ⟨⟨hm.1, hm.2, hd.1, hd.2, hh, hmin, hs⟩,
      (DateFields.seconds_nonneg_iff hm hd hh hmin hs).mpr hyear, htime⟩

theorem digitPair_eq_some {bytes : List UInt8} {index n : ℕ} :
    digitPair bytes index = some n ↔ bytePair bytes index = some n ∧
      ∀ byte, byte ∈ bytes[index]? ∨ byte ∈ bytes[index + 1]? → byte.toNat ≤ 57 := by
  simp only [digitPair, bytePair, Option.bind_eq_bind, Option.bind_eq_some_iff,
    Option.guard_eq_some', Option.some.injEq, Option.mem_def]
  constructor
  · rintro ⟨high, hhigh, low, hlow, -, hzero, -, hnine, rfl⟩
    refine ⟨⟨high, hhigh, low, hlow, (), hzero, rfl⟩, fun byte hbyte => ?_⟩
    rcases hbyte with hbyte | hbyte
    · obtain rfl := Option.some.inj (hhigh.symm.trans hbyte)
      omega
    · obtain rfl := Option.some.inj (hlow.symm.trans hbyte)
      omega
  · rintro ⟨⟨high, hhigh, low, hlow, -, hzero, rfl⟩, hnine⟩
    have h := hnine high (.inl hhigh)
    have h' := hnine low (.inr hlow)
    exact ⟨high, hhigh, low, hlow, (), hzero, (), by omega, rfl⟩

theorem spells_digitPair_iff :
    Spells digitPair value fields ↔ Spells bytePair value fields ∧ NoByteBehindNine value := by
  constructor
  · rintro ⟨hform, ⟨century, rest, hcentury, hrest, hyear⟩, hmonth, hday, hhour, hminute, hsecond⟩
    rw [digitPair_eq_some] at hcentury hrest hmonth hday hhour hminute hsecond
    refine ⟨⟨hform, ⟨century, rest, hcentury.1, hrest.1, hyear⟩, hmonth.1, hday.1, hhour.1,
      hminute.1, hsecond.1⟩, ?_⟩
    simp only [NoByteBehindNine, List.forall_mem_cons]
    exact ⟨hcentury.2, hrest.2, hmonth.2, hday.2, hhour.2, hminute.2, hsecond.2,
      fun _ h => absurd h List.not_mem_nil⟩
  · rintro ⟨⟨hform, ⟨century, rest, hcentury, hrest, hyear⟩, hmonth, hday, hhour, hminute, hsecond⟩,
      hnine⟩
    simp only [NoByteBehindNine, List.forall_mem_cons] at hnine
    obtain ⟨h0, h2, h4, h6, h9, h11, h13, -⟩ := hnine
    exact ⟨hform, ⟨century, rest, digitPair_eq_some.mpr ⟨hcentury, h0⟩,
      digitPair_eq_some.mpr ⟨hrest, h2⟩, hyear⟩, digitPair_eq_some.mpr ⟨hmonth, h4⟩,
      digitPair_eq_some.mpr ⟨hday, h6⟩, digitPair_eq_some.mpr ⟨hhour, h9⟩,
      digitPair_eq_some.mpr ⟨hminute, h11⟩, digitPair_eq_some.mpr ⟨hsecond, h13⟩⟩

theorem monthDays_le (year index : ℕ) : (monthDays year).getD index 0 ≤ 31 := by
  have hall : ∀ days ∈ monthDays year, days ≤ 31 := by
    intro days hdays
    simp only [monthDays, List.mem_cons, List.not_mem_nil, or_false] at hdays
    split at hdays <;> omega
  rw [List.getD_eq_getElem?_getD]
  cases h : (monthDays year)[index]? with
  | none => exact Nat.zero_le _
  | some days => exact hall days (List.mem_of_getElem? h)

/-- The reader of signatures takes what the other one takes, if the bytes are digits,
the month has the day and there is no leap second. -/
theorem parseTimestamp_eq_some :
    parseTimestamp value = some time ↔
      ∃ fields, Spells bytePair value fields ∧ fields.InRange ∧ NoByteBehindNine value ∧
        fields.DayExists ∧ fields.second ≤ 59 ∧ fromSecs fields.seconds.toNat = time := by
  have hread : parseTimestamp value = readTime digitPair (fun fields =>
      1 ≤ fields.month ∧ fields.month ≤ 12 ∧ fields.day ≠ 0 ∧
        fields.day ≤ (monthDays fields.year).getD (fields.month - 1) 0 ∧ fields.hour ≤ 23 ∧
        fields.minute ≤ 59 ∧ fields.second ≤ 59) value := rfl
  rw [hread, readTime_eq_some]
  refine exists_congr fun fields => ?_
  rw [spells_digitPair_iff]
  constructor
  · rintro ⟨⟨hspells, hnine⟩, ⟨hm, hm', hd, hd', hh, hmin, hs⟩, hepoch, htime⟩
    have hday : 1 ≤ fields.day ∧ fields.day ≤ 31 :=
      ⟨Nat.pos_of_ne_zero hd, hd'.trans (monthDays_le _ _)⟩
    have hs' : fields.second ≤ 60 := hs.trans (by decide)
    exact ⟨hspells, ⟨⟨hm, hm'⟩, hday, hh, hmin, hs',
      (DateFields.seconds_nonneg_iff ⟨hm, hm'⟩ hday hh hmin hs').mp hepoch⟩, hnine, hd', hs, htime⟩
  · rintro ⟨hspells, ⟨hm, hd, hh, hmin, hs, hyear⟩, hnine, hexists, hs', htime⟩
    exact ⟨⟨hspells, hnine⟩, ⟨hm.1, hm.2, Nat.pos_iff_ne_zero.mp hd.1, hexists, hh, hmin, hs'⟩,
      (DateFields.seconds_nonneg_iff hm hd hh hmin hs).mpr hyear, htime⟩

end Readers

/-! ### Agreement -/

/-- A text whose bytes count to the numbers of a time has digits in it and a day that
the month has. -/
def ReadAsWritten (value : Text) : Prop :=
  ∀ fields, Spells bytePair value fields → fields.InRange →
    NoByteBehindNine value ∧ fields.DayExists

/-- The field of the seconds is `60`. -/
def SecondsSixty (value : Text) : Prop :=
  (value.flatMap String.utf8EncodeChar)[13]? = some '6'.toUInt8 ∧
    (value.flatMap String.utf8EncodeChar)[14]? = some '0'.toUInt8

section Agreement

variable {value : Text} {fields : DateFields}

theorem second_ne_sixty (hspells : Spells bytePair value fields) (hnine : NoByteBehindNine value)
    (hsixty : ¬SecondsSixty value) : fields.second ≠ 60 := by
  intro h
  have hsecond := hspells.second
  simp only [bytePair, Option.bind_eq_bind, Option.bind_eq_some_iff, Option.guard_eq_some',
    Option.some.injEq] at hsecond
  obtain ⟨tens, htens, ones, hones, -, hzero, hvalue⟩ := hsecond
  have h13 := hnine 13 (by decide) tens (.inl htens)
  have h14 := hnine 13 (by decide) ones (.inr hones)
  have htens' : tens = '6'.toUInt8 := UInt8.toNat_inj.mp (show tens.toNat = 54 by omega)
  have hones' : ones = '0'.toUInt8 := UInt8.toNat_inj.mp (show ones.toNat = 48 by omega)
  exact hsixty ⟨htens' ▸ htens, hones' ▸ hones⟩

theorem timestamps_agree_iff (hsixty : ¬SecondsSixty value) :
    parseAmzTimestamp value = parseTimestamp value ↔ ReadAsWritten value := by
  constructor
  · intro hagree fields hspells hrange
    have hamz := parseAmzTimestamp_eq_some.mpr ⟨fields, hspells, hrange, rfl⟩
    obtain ⟨other, hspells', -, hnine, hexists, -⟩ := parseTimestamp_eq_some.mp (hagree ▸ hamz)
    obtain rfl := hspells.unique hspells'
    exact ⟨hnine, hexists⟩
  · intro hread
    refine Option.ext fun time => ?_
    rw [parseAmzTimestamp_eq_some, parseTimestamp_eq_some]
    refine exists_congr fun fields => ⟨?_, ?_⟩
    · rintro ⟨hspells, hrange, htime⟩
      obtain ⟨hnine, hexists⟩ := hread fields hspells hrange
      have hne := second_ne_sixty hspells hnine hsixty
      have hle := hrange.second
      exact ⟨hspells, hrange, hnine, hexists, by omega, htime⟩
    · rintro ⟨hspells, hrange, -, -, -, htime⟩
      exact ⟨hspells, hrange, htime⟩

end Agreement

/-! ### Presigned URLs -/

/-- The name stands in the query once, with this value. -/
def OnlyPair (query : List (Text × Text)) (name value : Text) : Prop :=
  query.filter (·.1 = name) = [(name, value)]

/-- The pairs of a URL's query, with their names in lower case. -/
def loweredPairs (platform : Platform) (url : Url) : List (Text × Text) :=
  (platform.queryPairs url).map fun (name, value) => (toAsciiLowercase name, value)

theorem OnlyPair.find {query : List (Text × Text)} {name value : Text}
    (h : OnlyPair query name value) : (query.find? (·.1 = name)).map (·.2) = some value := by
  rw [← List.head?_filter, h]
  rfl

theorem checkedAdd_eq_some {time duration sum : ℕ} :
    checkedAdd time duration = some sum ↔ time + duration < systemTimeBound ∧ time + duration = sum := by
  simp [checkedAdd]

section Expiry

variable {platform : Platform} {url : Url} {date expires : Text} {now minimumValidity : ℕ}

theorem expiryOf_eq_ok {query : List (Text × Text)} {expiry : ℕ}
    (hdate : OnlyPair query amzDateName date) (hexpires : OnlyPair query amzExpiresName expires) :
    expiryOf query = .ok expiry ↔
      ∃ signedAt validFor, parseAmzTimestamp date = some signedAt ∧
        parseU64 expires = some validFor ∧
        signedAt + fromSecs validFor < systemTimeBound ∧ signedAt + fromSecs validFor = expiry := by
  simp only [expiryOf, hdate.find, hexpires.find, bind_eq_ok, okOr_eq_ok, checkedAdd_eq_some]
  constructor
  · rintro ⟨signedAt, hsigned, validFor, hvalid, hbound, hsum⟩
    exact ⟨signedAt, validFor, hsigned, hvalid, hbound, hsum⟩
  · rintro ⟨signedAt, validFor, hsigned, hvalid, hbound, hsum⟩
    exact ⟨signedAt, hsigned, validFor, hvalid, hbound, hsum⟩

/-- The date as the reader `parse` has it, and so many seconds, is a time behind the
required one. -/
def ExpiresAfter (parse : Text → Option ℕ) (date expires : Text) (required : ℕ) : Prop :=
  ∃ signedAt validFor, parse date = some signedAt ∧ parseU64 expires = some validFor ∧
    signedAt + fromSecs validFor < systemTimeBound ∧ required < signedAt + fromSecs validFor

theorem validateExpiry_eq_ok (hdate : OnlyPair (loweredPairs platform url) amzDateName date)
    (hexpires : OnlyPair (loweredPairs platform url) amzExpiresName expires) :
    validateExpiry platform url now minimumValidity = .ok () ↔
      ExpiresAfter parseAmzTimestamp date expires (now + minimumValidity) := by
  have hquery : validateExpiry platform url now minimumValidity = (do
      let expiresAt ← expiryOf (loweredPairs platform url)
      let requiredUntil ← okOr (checkedAdd now minimumValidity)
        "presigned URL validity calculation overflowed"
      rejectIf (expiresAt ≤ requiredUntil) "presigned source URL expires too soon") := rfl
  simp only [hquery, bind_eq_ok, expiryOf_eq_ok hdate hexpires, okOr_eq_ok, rejectIf_eq_ok,
    checkedAdd_eq_some]
  constructor
  · rintro ⟨_, ⟨signedAt, validFor, hsigned, hvalid, hbound, rfl⟩, _, ⟨-, rfl⟩, hlater⟩
    exact ⟨signedAt, validFor, hsigned, hvalid, hbound, Nat.lt_of_not_le hlater⟩
  · -- a required time that overflows is behind every expiry
    rintro ⟨signedAt, validFor, hsigned, hvalid, hbound, hlater⟩
    exact ⟨_, ⟨signedAt, validFor, hsigned, hvalid, hbound, rfl⟩, _, ⟨hlater.trans hbound, rfl⟩,
      Nat.not_le.mpr hlater⟩

end Expiry

/-- Where the seconds are not `60`, the expiry check works with the time that the
signature check works with exactly for texts that are read as they are written. -/
theorem expiry_reads_signed_date_iff (date : Text) (hsixty : ¬SecondsSixty date) :
    (parseAmzTimestamp date = parseTimestamp date ∧
      ∀ (platform : Platform) (url : Url) (expires : Text) (now minimumValidity : ℕ),
        OnlyPair (loweredPairs platform url) amzDateName date →
        OnlyPair (loweredPairs platform url) amzExpiresName expires →
        (validateExpiry platform url now minimumValidity = .ok () ↔
          ExpiresAfter parseTimestamp date expires (now + minimumValidity))) ↔
      ReadAsWritten date := by
  rw [← timestamps_agree_iff hsixty]
  refine ⟨And.left, fun hagree => ⟨hagree, ?_⟩⟩
  intro platform url expires now minimumValidity hdate hexpires
  rw [validateExpiry_eq_ok hdate hexpires, ExpiresAfter, ExpiresAfter, hagree]

def leapDay : Text := "20240229T120000Z".toList

theorem leapDay_read_alike :
    ¬SecondsSixty leapDay ∧ parseAmzTimestamp leapDay = parseTimestamp leapDay := by
  have hsixty : ¬SecondsSixty leapDay := by
    rintro ⟨hsix, -⟩
    exact absurd hsix (by decide)
  have hparsed : (parseTimestamp leapDay).isSome := by
    decide
  refine ⟨hsixty, ((expiry_reads_signed_date_iff leapDay hsixty).mpr ?_).1⟩
  intro fields hspells hrange
  obtain ⟨time, htime⟩ := Option.isSome_iff_exists.mp hparsed
  obtain ⟨other, hspells', -, hnine, hexists, -⟩ := parseTimestamp_eq_some.mp htime
  obtain rfl := hspells.unique hspells'
  exact ⟨hnine, hexists⟩

def noSuchDay : Text := "20260229T120000Z".toList

def noDigit : Text := "2026010:T120000Z".toList

/-- A day that February does not have and a colon for a digit both give an expiry, and
no signature has such a date. -/
theorem expiry_from_refused_dates :
    parseTimestamp noSuchDay = none ∧ parseTimestamp noDigit = none ∧
      expiryOf [(amzDateName, noSuchDay), (amzExpiresName, ['6', '0'])] =
        .ok (fromSecs 1772366460) ∧
      expiryOf [(amzDateName, noDigit), (amzExpiresName, ['6', '0'])] =
        .ok (fromSecs 1768046460) := by
  decide +kernel

end Maskura.Backend
