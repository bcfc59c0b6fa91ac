import Latchgate.Auth.Issuer
import Latchgate.Calendar.Civil

namespace Latchgate

/-! Times of seconds since 1970, and that none of the arithmetic behind them
overflows. -/

/-- Numbers of 64 bits, each with what the operation asks of it. -/
def checkedAdd (a b : Nat) : Option Nat :=
  if a + b < 2 ^ 64 then some (a + b) else none

def checkedMul (a b : Nat) : Option Nat :=
  if a * b < 2 ^ 64 then some (a * b) else none

def checkedSub (a b : Nat) : Option Nat :=
  if b ≤ a then some (a - b) else none

def checkedMonth (mp : Nat) : Option Nat :=
  if mp < 10 then checkedAdd mp 3 else checkedSub mp 9

def checkedYear (y m : Nat) : Option Nat :=
  if m ≤ 2 then checkedAdd y 1 else some y

/-- `days_to_ymd`, with no result where an operation has none. -/
def checkedDaysToYmd (days : Nat) : Option (Nat × Nat × Nat) := do
  let z ← checkedAdd days 719468
  let era := z / 146097
  let doe ← checkedSub z (← checkedMul era 146097)
  let yoe := (← checkedSub (← checkedAdd (← checkedSub doe (doe / 1460)) (doe / 36524)) (doe / 146096)) / 365
  let y ← checkedAdd yoe (← checkedMul era 400)
  let doy ← checkedSub doe (← checkedSub (← checkedAdd (← checkedMul 365 yoe) (yoe / 4)) (yoe / 100))
  let mp := (← checkedAdd (← checkedMul 5 doy) 2) / 153
  let d ← checkedAdd (← checkedSub doy ((← checkedAdd (← checkedMul 153 mp) 2) / 5)) 1
  let m ← checkedMonth mp
  let y ← checkedYear y m
  some (y, m, d)

def checkedTimestamp (secs : UInt64) : Option String := do
  let timeOfDay := secs.toNat % 86400
  let (year, month, day) ← checkedDaysToYmd (secs.toNat / 86400)
  some (zeroPadded 4 year ++ "-" ++ zeroPadded 2 month ++ "-" ++ zeroPadded 2 day ++ "T" ++ zeroPadded 2 (timeOfDay / 3600) ++
    ":" ++ zeroPadded 2 (timeOfDay % 3600 / 60) ++ ":" ++ zeroPadded 2 (timeOfDay % 60) ++ "Z")

section Timestamp
open Calendar

theorem january : 1 ≤ 1 ∧ 1 ≤ 12 := by decide

def epoch : Date :=
  ⟨1970, 1, 1, january, by decide⟩

theorem days_epoch : epoch.days = 719528 := by decide

/-- The date of a number of days behind the first of January 1970. -/
def dateAfter (n : Nat) : Date :=
  Date.next^[n] epoch

/-- The last second of the year 9999. -/
def lastSecond : Nat :=
  (daysBeforeYear 10000 - epoch.days) * 86400 - 1

/-- The second that a text stands for, if it is not before 1970. -/
def readInstant (text : String) : Option Nat := do
  let (date, second) ← readStamp text.toList
  if epoch.days ≤ date.days then some ((date.days - epoch.days) * 86400 + second) else none

section Days
variable (m : MarchDay)

def dayOfEra : Nat :=
  36524 * m.century + 1461 * m.quad + 365 * m.yearOfQuad + m.day

def yearOfEra : Nat :=
  100 * m.century + 4 * m.quad + m.yearOfQuad

theorem number_eq : m.number = m.era * 146097 + dayOfEra m := by
  unfold MarchDay.number dayOfEra
  omega

theorem dayOfEra_lt : dayOfEra m < 146097 := by
  have fields := And.intro m.inEra (And.intro m.inCentury m.inQuad)
  have inYear := m.inYear
  unfold dayOfEra
  omega

theorem yearOfEra_lt : yearOfEra m < 400 := by
  have fields := And.intro m.inEra (And.intro m.inCentury m.inQuad)
  unfold yearOfEra
  omega

/-- Without the days that leap years and centuries bring, the day of the era
counts years of 365 days. -/
theorem yearOfEra_eq :
    dayOfEra m / 146096 ≤ dayOfEra m - dayOfEra m / 1460 + dayOfEra m / 36524 ∧
    (dayOfEra m - dayOfEra m / 1460 + dayOfEra m / 36524 - dayOfEra m / 146096) / 365 = yearOfEra m := by
  have fields := And.intro m.inEra (And.intro m.inCentury m.inQuad)
  have inYear := m.inYear
  have last : 1461 * m.quad + 365 * m.yearOfQuad + m.day < 36524 ∨
      m.century = 3 ∧ m.quad = 24 ∧ m.yearOfQuad = 3 ∧ m.day = 365 := by omega
  have centuries : dayOfEra m / 36524 = m.century + dayOfEra m / 146096 := by
    unfold dayOfEra
    omega
  have quads : dayOfEra m / 1460 = 25 * m.century + m.quad ∧
        24 * m.century + m.quad + 365 * m.yearOfQuad + m.day < 1460 ∨
      dayOfEra m / 1460 = 25 * m.century + m.quad + 1 ∧ 1460 ≤ 24 * m.century + m.quad + 365 * m.yearOfQuad + m.day := by
    unfold dayOfEra
    omega
  rw [centuries]
  unfold yearOfEra
  generalize dayOfEra m / 146096 = era at *
  rcases quads with ⟨quads, low⟩ | ⟨quads, high⟩
  · rw [quads]
    unfold dayOfEra
    omega
  · rw [quads]
    unfold dayOfEra
    omega

theorem dayOfYear_eq :
    yearOfEra m / 100 ≤ 365 * yearOfEra m + yearOfEra m / 4 ∧
    365 * yearOfEra m + yearOfEra m / 4 - yearOfEra m / 100 + m.day = dayOfEra m := by
  have fields := And.intro m.inEra (And.intro m.inCentury m.inQuad)
  have fours : yearOfEra m / 4 = 25 * m.century + m.quad := by
    unfold yearOfEra
    omega
  have hundreds : yearOfEra m / 100 = m.century := by
    unfold yearOfEra
    omega
  rw [fours, hundreds]
  unfold yearOfEra dayOfEra
  omega

theorem date_year : m.date.year = if m.month < 10 then yearOfEra m + m.era * 400 else yearOfEra m + m.era * 400 + 1 := by
  have years : m.year = yearOfEra m + m.era * 400 := by
    unfold MarchDay.year yearOfEra
    omega
  unfold MarchDay.date
  split_ifs
  · exact years
  · exact congrArg (· + 1) years

theorem date_month : m.date.month = if m.month < 10 then m.month + 3 else m.month - 9 := by
  unfold MarchDay.date
  split_ifs <;> rfl

theorem date_day : m.date.day = m.day - (153 * m.month + 2) / 5 + 1 := by
  unfold MarchDay.date
  split_ifs <;> rfl

/-- March begins a year of the calendar's months behind the first two. -/
theorem date_month_le : m.date.month ≤ 2 ↔ ¬m.month < 10 := by
  have most := m.month_le
  rw [date_month]
  split_ifs <;> omega

end Days

theorem checkedAdd_eq {a b : Nat} (fits : a + b < 2 ^ 64) : checkedAdd a b = some (a + b) :=
  if_pos fits

theorem checkedMul_eq {a b : Nat} (fits : a * b < 2 ^ 64) : checkedMul a b = some (a * b) :=
  if_pos fits

theorem checkedSub_eq {a b : Nat} (fits : b ≤ a) : checkedSub a b = some (a - b) :=
  if_pos fits

/-- The arithmetic gives the date, and each of its steps fits. -/
theorem checkedDaysToYmd_number {m : MarchDay} {days : Nat} (same : days + 719468 = m.number) (fits : m.number < 2 ^ 64) :
    checkedDaysToYmd days = some (m.date.year, m.date.month, m.date.day) := by
  have number := number_eq m
  have ofEra := dayOfEra_lt m
  have ofYear := yearOfEra_lt m
  have day := m.day_le
  have month := m.month_le
  have least := m.daysBefore_month_le
  unfold MarchDay.daysBefore at least
  obtain ⟨corrected, years⟩ := yearOfEra_eq m
  obtain ⟨centuries, rest⟩ := dayOfYear_eq m
  have z : checkedAdd days 719468 = some m.number := by rw [checkedAdd_eq (by omega), same]
  have era : m.number / 146097 = m.era := by omega
  have start := @checkedMul_eq m.era 146097 (by omega)
  have doe : checkedSub m.number (m.era * 146097) = some (dayOfEra m) := by
    rw [checkedSub_eq (by omega), show m.number - m.era * 146097 = dayOfEra m by omega]
  have quads := @checkedSub_eq (dayOfEra m) (dayOfEra m / 1460) (by omega)
  have hundreds := @checkedAdd_eq (dayOfEra m - dayOfEra m / 1460) (dayOfEra m / 36524) (by omega)
  have last := checkedSub_eq corrected
  have eras := @checkedMul_eq m.era 400 (by omega)
  have y := @checkedAdd_eq (yearOfEra m) (m.era * 400) (by omega)
  have whole := @checkedMul_eq 365 (yearOfEra m) (by omega)
  have leaps := @checkedAdd_eq (365 * yearOfEra m) (yearOfEra m / 4) (by omega)
  have before := checkedSub_eq centuries
  have doy : checkedSub (dayOfEra m) (365 * yearOfEra m + yearOfEra m / 4 - yearOfEra m / 100) = some m.day := by
    rw [checkedSub_eq (by omega), Nat.sub_eq_of_eq_add (Nat.add_comm _ _ ▸ rest).symm]
  have five := @checkedMul_eq 5 m.day (by omega)
  have up := @checkedAdd_eq (5 * m.day) 2 (by omega)
  have mp : (5 * m.day + 2) / 153 = m.month := rfl
  have months := @checkedMul_eq 153 m.month (by omega)
  have next := @checkedAdd_eq (153 * m.month) 2 (by omega)
  have ofMonth := checkedSub_eq least
  have d := @checkedAdd_eq (m.day - (153 * m.month + 2) / 5) 1 (by omega)
  have calendar : checkedMonth m.month = some m.date.month := by
    rw [checkedMonth, date_month]
    split_ifs with march
    · exact checkedAdd_eq (by omega)
    · exact checkedSub_eq (by omega)
  have year : checkedYear (yearOfEra m + m.era * 400) m.date.month = some m.date.year := by
    simp only [checkedYear, date_month_le, date_year]
    split_ifs with march
    · rfl
    · exact checkedAdd_eq (by omega)
  unfold checkedDaysToYmd
  dsimp only
  rw [Option.bind_eq_bind, z, Option.bind_some, era, start, Option.bind_some, doe, Option.bind_some, quads, Option.bind_some,
    hundreds, Option.bind_some, last, Option.bind_some, years, eras, Option.bind_some, y, Option.bind_some, whole, Option.bind_some,
    leaps, Option.bind_some, before, Option.bind_some, doy, Option.bind_some, five, Option.bind_some, up, Option.bind_some, mp,
    months, Option.bind_some, next, Option.bind_some, ofMonth, Option.bind_some, d, Option.bind_some, calendar, Option.bind_some,
    year, Option.bind_some, date_day]

theorem daysToYmd_number {m : MarchDay} {days : Nat} (same : days + 719468 = m.number) :
    daysToYmd days = (m.date.year, m.date.month, m.date.day) := by
  have number := number_eq m
  have ofEra := dayOfEra_lt m
  have years := (yearOfEra_eq m).2
  have rest := (dayOfYear_eq m).2
  have era : m.number / 146097 = m.era := by omega
  have doe : m.number - m.era * 146097 = dayOfEra m := by omega
  have doy : dayOfEra m - (365 * yearOfEra m + yearOfEra m / 4 - yearOfEra m / 100) = m.day := by omega
  have mp : (5 * m.day + 2) / 153 = m.month := rfl
  unfold daysToYmd
  dsimp only
  rw [same, era, doe, years, doy, mp, ← date_month, ← date_day, date_year]
  simp only [date_month_le]
  split_ifs with march
  · rfl
  · rfl

theorem days_dateAfter (n : Nat) : (dateAfter n).days = n + 719528 := by
  rw [dateAfter, Date.days_iterate_next, days_epoch]
  exact Nat.add_comm 719528 n

theorem date_ofNumber (n : Nat) : (MarchDay.ofNumber (n + 719468)).date = dateAfter n :=
  Date.eq_of_days (by rw [MarchDay.days_date, MarchDay.number_ofNumber, days_dateAfter])

theorem daysToYmd_eq (n : Nat) : daysToYmd n = ((dateAfter n).year, (dateAfter n).month, (dateAfter n).day) := by
  rw [← date_ofNumber, daysToYmd_number (MarchDay.number_ofNumber _).symm]

theorem checkedDaysToYmd_eq {n : Nat} (fits : n + 719468 < 2 ^ 64) : checkedDaysToYmd n = some (daysToYmd n) := by
  have number := MarchDay.number_ofNumber (n + 719468)
  rw [checkedDaysToYmd_number number.symm (by rwa [number]), daysToYmd_number number.symm]

/-- So many days are 86400 times as many seconds. -/
theorem checkedTimestamp_eq (secs : UInt64) : checkedTimestamp secs = some (formatTimestamp secs) := by
  have most := secs.toNat_lt
  rw [checkedTimestamp, checkedDaysToYmd_eq (by omega)]
  rfl

variable {secs a b : UInt64}

theorem year_dateAfter (before : secs.toNat ≤ lastSecond) : (dateAfter (secs.toNat / 86400)).year < 10000 := by
  have bound : lastSecond = 253402300799 := by decide
  have whole : daysBeforeYear 10000 = 3652425 := by decide
  have days := days_dateAfter (secs.toNat / 86400)
  by_contra late
  have least := Nat.le_trans (daysBeforeYear_mono (Nat.not_lt.mp late)) (Date.year_le_days _)
  rw [whole, days] at least
  rw [bound] at before
  clear whole bound days late
  omega

theorem toList_zeroPadded {width n : Nat} (positive : 0 < width) (below : n < 10 ^ width) :
    (zeroPadded width n).toList = digits width n := by
  rw [zeroPadded, String.toList_ofList, Nat.toList_repr, leftpad_toDigits positive below]

theorem toList_formatTimestamp (before : secs.toNat ≤ lastSecond) :
    (formatTimestamp secs).toList = stamp (dateAfter (secs.toNat / 86400)) (secs.toNat % 86400) := by
  have year := year_dateAfter before
  have inYear := (dateAfter (secs.toNat / 86400)).inYear
  have day := (dateAfter (secs.toNat / 86400)).day_le
  have minutes : secs.toNat % 86400 % 3600 / 60 = secs.toNat % 86400 / 60 % 60 := by omega
  simp only [formatTimestamp, daysToYmd_eq, String.toList_append]
  rw [toList_zeroPadded (by decide) (by omega), toList_zeroPadded (by decide) (by omega), toList_zeroPadded (by decide) (by omega),
    toList_zeroPadded (by decide) (by omega), toList_zeroPadded (by decide) (by omega), toList_zeroPadded (by decide) (by omega),
    minutes]
  simp [stamp, Date.text, clock]

theorem formatTimestamp_lt (first : a.toNat ≤ lastSecond) (last : b.toNat ≤ lastSecond) :
    formatTimestamp a < formatTimestamp b ↔ a < b := by
  rw [String.lt_iff, toList_formatTimestamp first, toList_formatTimestamp last,
    stamp_lt (year_dateAfter first) (year_dateAfter last) (Nat.mod_lt _ (by decide)) (Nat.mod_lt _ (by decide)), days_dateAfter,
    days_dateAfter, UInt64.lt_iff_toNat_lt]
  omega

theorem readInstant_formatTimestamp (before : secs.toNat ≤ lastSecond) :
    readInstant (formatTimestamp secs) = some secs.toNat := by
  have days := days_dateAfter (secs.toNat / 86400)
  simp only [readInstant, toList_formatTimestamp before, readStamp_stamp (year_dateAfter before) (Nat.mod_lt _ (by decide)),
    Option.bind_eq_bind, Option.bind_some, days, days_epoch]
  rw [if_pos (by omega), show (secs.toNat / 86400 + 719528 - 719528) * 86400 + secs.toNat % 86400 = secs.toNat by omega]

/-- No step overflows, a day is the successor of the day before it, and up to the
end of the year 9999 the texts are in the order of the seconds that they are read
back as. -/
theorem formatTimestamp_spec :
    (∀ secs : UInt64, checkedTimestamp secs = some (formatTimestamp secs)) ∧
    (∀ n, daysToYmd n = ((dateAfter n).year, (dateAfter n).month, (dateAfter n).day) ∧
      (n + 719468 < 2 ^ 64 → checkedDaysToYmd n = some (daysToYmd n))) ∧
    ∀ a b : UInt64, a.toNat ≤ lastSecond → b.toNat ≤ lastSecond →
      (formatTimestamp a < formatTimestamp b ↔ a < b) ∧ readInstant (formatTimestamp a) = some a.toNat :=
  ⟨checkedTimestamp_eq, fun n => ⟨daysToYmd_eq n, checkedDaysToYmd_eq⟩,
    fun _ _ first last => ⟨formatTimestamp_lt first last, readInstant_formatTimestamp first⟩⟩

example : formatTimestamp 1709164800 = "2024-02-29T00:00:00Z" ∧ formatTimestamp 253402300799 = "9999-12-31T23:59:59Z" := by
  decide

end Timestamp

end Latchgate
