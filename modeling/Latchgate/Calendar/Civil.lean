import Latchgate.Calendar.Stamp
import Mathlib.Logic.Function.Iterate

/-! Days one after the other, years that begin with March, and texts that are
read back. -/

namespace Calendar

theorem one_le_monthLength (leaping : Bool) (month : Nat) : 1 ≤ monthLength leaping month := by
  unfold monthLength
  split_ifs <;> omega

namespace Date
variable {a b : Date}

theorem eq_of_days (same : a.days = b.days) : a = b := by
  obtain ⟨year, month, day⟩ := days_eq_iff.1 same
  cases a
  cases b
  cases year
  cases month
  cases day
  rfl

/-- The day after: in the month, in the year, or the first one of a year. -/
def next (d : Date) : Date :=
  if inMonth : d.day < monthLength (leap d.year) d.month then
    ⟨d.year, d.month, d.day + 1, d.inYear, ⟨by omega, inMonth⟩⟩
  else if inYear : d.month < 12 then
    ⟨d.year, d.month + 1, 1, ⟨by omega, inYear⟩, ⟨Nat.le_refl 1, one_le_monthLength _ _⟩⟩
  else
    ⟨d.year + 1, 1, 1, by decide, ⟨Nat.le_refl 1, one_le_monthLength _ _⟩⟩

theorem days_next (d : Date) : d.next.days = d.days + 1 := by
  have month := d.inMonth
  have year := d.inYear
  unfold next
  split_ifs with inMonth inYear
  · simp only [days]
    omega
  · simp only [days, daysBeforeMonth_next year]
    omega
  · have december : d.month = 12 := by omega
    have whole := daysBeforeMonth_year (leap d.year)
    rw [daysBeforeMonth_next ⟨by omega, Nat.le_refl 12⟩] at whole
    rw [december] at month inMonth
    simp only [days, december, daysBeforeYear_succ]
    rw [show daysBeforeMonth (leap (d.year + 1)) 1 = 0 from rfl]
    omega

theorem days_iterate_next (d : Date) (n : Nat) : (next^[n] d).days = d.days + n := by
  induction n with
  | zero => rfl
  | succ n ih =>
    rw [Function.iterate_succ_apply', days_next, ih]
    omega

end Date

/-! Years from March. -/

/-- A day by the centuries of an era of 400 years, the groups of four years of
a century and the years of a group. Only the last year of a group has a day more,
and not at the end of the first three centuries. -/
structure MarchDay where
  era : Nat
  century : Nat
  quad : Nat
  yearOfQuad : Nat
  day : Nat
  inEra : century ≤ 3
  inCentury : quad ≤ 24
  inQuad : yearOfQuad ≤ 3
  inYear : day < 365 ∨ day = 365 ∧ yearOfQuad = 3 ∧ (quad < 24 ∨ century = 3)

namespace MarchDay

/-- The days since the first of March of the year 0. -/
def number (m : MarchDay) : Nat :=
  146097 * m.era + 36524 * m.century + 1461 * m.quad + 365 * m.yearOfQuad + m.day

def year (m : MarchDay) : Nat :=
  400 * m.era + 100 * m.century + 4 * m.quad + m.yearOfQuad

/-- Months from March on. -/
def month (m : MarchDay) : Nat :=
  (5 * m.day + 2) / 153

def daysBefore (month : Nat) : Nat :=
  (153 * month + 2) / 5

/-- The last of four centuries, and the last of four years, has the day that is
left over. -/
def ofNumber (n : Nat) : MarchDay where
  era := n / 146097
  century := min 3 (n % 146097 / 36524)
  quad := (n % 146097 - 36524 * min 3 (n % 146097 / 36524)) / 1461
  yearOfQuad := min 3 ((n % 146097 - 36524 * min 3 (n % 146097 / 36524)) % 1461 / 365)
  day := (n % 146097 - 36524 * min 3 (n % 146097 / 36524)) % 1461 -
    365 * min 3 ((n % 146097 - 36524 * min 3 (n % 146097 / 36524)) % 1461 / 365)
  inEra := Nat.min_le_left _ _
  inCentury := by omega
  inQuad := Nat.min_le_left _ _
  inYear := by omega

theorem number_ofNumber (n : Nat) : (ofNumber n).number = n := by
  simp only [number, ofNumber]
  omega

variable (m : MarchDay)

theorem day_le : m.day ≤ 365 := by
  have inYear := m.inYear
  omega

theorem month_le : m.month ≤ 11 := by
  have most := m.day_le
  unfold month
  omega

theorem daysBefore_month_le : daysBefore m.month ≤ m.day := by
  unfold daysBefore month
  omega

theorem lt_daysBefore_month : m.day < daysBefore (m.month + 1) := by
  unfold daysBefore month
  omega

theorem monthLength_of_lt {leaping : Bool} {month : Nat} (march : month < 10) :
    monthLength leaping (month + 3) = daysBefore (month + 1) - daysBefore month := by
  have all : ∀ leaping : Bool, ∀ month : Fin 10,
      monthLength leaping (month + 3) = daysBefore (month + 1) - daysBefore month := by decide
  exact all leaping ⟨month, march⟩

theorem daysBeforeMonth_of_lt {leaping : Bool} {month : Nat} (march : month < 10) :
    daysBeforeMonth leaping (month + 3) + 306 = daysBefore month + if leaping then 366 else 365 := by
  have all : ∀ leaping : Bool, ∀ month : Fin 10,
      daysBeforeMonth leaping (month + 3) + 306 = daysBefore month + if leaping then 366 else 365 := by decide
  exact all leaping ⟨month, march⟩

/-- The year that begins with January is behind ten months of this one. -/
theorem leap_succ_year : leap (m.year + 1) = true ↔ m.yearOfQuad = 3 ∧ (m.quad < 24 ∨ m.century = 3) := by
  have fields := And.intro m.inEra (And.intro m.inCentury m.inQuad)
  rw [leap, year, decide_eq_true_iff]
  omega

theorem daysBeforeYear_succ_year : daysBeforeYear (m.year + 1) + m.day = m.number + 366 := by
  have fields := And.intro m.inEra (And.intro m.inCentury m.inQuad)
  have fours : (m.year + 4) / 4 = 100 * m.era + 25 * m.century + m.quad + 1 := by
    unfold year
    omega
  have hundreds : (m.year + 100) / 100 = 4 * m.era + m.century + 1 := by
    unfold year
    omega
  have eras : (m.year + 400) / 400 = m.era + 1 := by
    unfold year
    omega
  rw [daysBeforeYear, Nat.add_assoc m.year 1 3, Nat.add_assoc m.year 1 399, Nat.add_assoc m.year 1 99, fours, hundreds, eras,
    year, number]
  omega

/-- The same day with its month from January. -/
def date : Date :=
  if march : m.month < 10 then
    { year := m.year
      month := m.month + 3
      day := m.day - daysBefore m.month + 1
      inYear := by omega
      inMonth := by
        have below := m.lt_daysBefore_month
        have least := m.daysBefore_month_le
        rw [monthLength_of_lt march]
        omega }
  else
    { year := m.year + 1
      month := m.month - 9
      day := m.day - daysBefore m.month + 1
      inYear := by
        have most := m.month_le
        omega
      inMonth := by
        have below := m.lt_daysBefore_month
        have least := m.daysBefore_month_le
        have inYear := m.inYear
        have most := m.month_le
        rw [← m.leap_succ_year] at inYear
        rcases (by omega : m.month = 10 ∨ m.month = 11) with january | february
        · have length : monthLength (leap (m.year + 1)) (10 - 9) = 31 := rfl
          have starts : daysBefore 10 = 306 ∧ daysBefore (10 + 1) = 337 := ⟨rfl, rfl⟩
          rw [january] at below least ⊢
          omega
        · have length : monthLength (leap (m.year + 1)) (11 - 9) = if leap (m.year + 1) then 29 else 28 := rfl
          have starts : daysBefore 11 = 337 := rfl
          rw [february] at below least ⊢
          split_ifs at length with leaping
          · omega
          · have common : m.day < 365 := inYear.resolve_right fun last => leaping last.2
            omega }

theorem days_date : m.date.days = m.number + 60 := by
  have whole := m.daysBeforeYear_succ_year
  have least := m.daysBefore_month_le
  have most := m.month_le
  unfold date
  split_ifs with march
  · have months := @daysBeforeMonth_of_lt (leap m.year) m.month march
    rw [daysBeforeYear_succ] at whole
    simp only [Date.days]
    omega
  · have behind : daysBeforeMonth (leap (m.year + 1)) (m.month - 9) + 306 = daysBefore m.month := by
      rcases (by omega : m.month = 10 ∨ m.month = 11) with january | february
      · rw [january]
        rfl
      · rw [february]
        rfl
    simp only [Date.days]
    omega

end MarchDay

/-! Texts of whole seconds. -/

theorem digits_zero (width : Nat) : digits width 0 = List.replicate width '0' := by
  induction width with
  | zero => rfl
  | succ width ih =>
    rw [digits, Nat.zero_div, ih, List.replicate_succ']
    rfl

/-- A number that is padded with zeros. -/
theorem leftpad_toDigits {width n : Nat} (positive : 0 < width) (below : n < 10 ^ width) :
    List.leftpad width '0' (Nat.toDigits 10 n) = digits width n := by
  induction width generalizing n with
  | zero => exact absurd positive (Nat.lt_irrefl 0)
  | succ width ih =>
    rw [Nat.pow_succ] at below
    rcases Nat.lt_or_ge n 10 with single | more
    · rw [Nat.toDigits_of_lt_base single, digits, Nat.div_eq_of_lt single, Nat.mod_eq_of_lt single, digits_zero]
      rfl
    · have wide : 0 < width := by
        rcases Nat.eq_zero_or_pos width with rfl | wide
        · omega
        · exact wide
      have tens := @ih (n / 10) wide (by omega)
      rw [Nat.toDigits_of_base_le (by decide) more, digits, ← tens, List.leftpad, List.leftpad, List.length_append,
        List.length_singleton, Nat.add_sub_add_right, List.append_assoc]

def stamp (d : Date) (second : Nat) : List Char :=
  d.text ++ 'T' :: (clock second ++ ['Z'])

theorem stamp_lt {a b : Date} {second other : Nat} (first : a.year < 10000) (last : b.year < 10000)
    (inDay : second < 86400) (inOther : other < 86400) :
    stamp a second < stamp b other ↔ a.days < b.days ∨ a.days = b.days ∧ second < other := by
  rw [stamp, stamp, Date.text_append_lt first last, List.cons_lt_cons_self, clock_append_lt inDay inOther]
  simp only [List.lt_irrefl, and_false, or_false]

/-- A number of so many digits behind those that are read, and the rest. -/
def readDigits : Nat → Nat → List Char → Option (Nat × List Char)
  | 0, value, text => some (value, text)
  | width + 1, value, c :: text =>
    if c.isDigit then readDigits width (10 * value + (c.toNat - '0'.toNat)) text else none
  | _ + 1, _, [] => none

def readSign (sign : Char) : List Char → Option (List Char)
  | c :: text => if c = sign then some text else none
  | [] => none

def readDate (text : List Char) : Option (Date × List Char) := do
  let (year, text) ← readDigits 4 0 text
  let text ← readSign '-' text
  let (month, text) ← readDigits 2 0 text
  let text ← readSign '-' text
  let (day, text) ← readDigits 2 0 text
  if valid : (1 ≤ month ∧ month ≤ 12) ∧ 1 ≤ day ∧ day ≤ monthLength (leap year) month then
    some (⟨year, month, day, valid.1, valid.2⟩, text)
  else none

def readClock (text : List Char) : Option (Nat × List Char) := do
  let (hour, text) ← readDigits 2 0 text
  let text ← readSign ':' text
  let (minute, text) ← readDigits 2 0 text
  let text ← readSign ':' text
  let (second, text) ← readDigits 2 0 text
  if hour < 24 ∧ minute < 60 ∧ second < 60 then some (3600 * hour + 60 * minute + second, text) else none

/-- The day and the second of it that a whole text stands for. -/
def readStamp (text : List Char) : Option (Date × Nat) := do
  let (date, text) ← readDate text
  let text ← readSign 'T' text
  let (second, text) ← readClock text
  let text ← readSign 'Z' text
  if text = [] then some (date, second) else none

theorem readSign_cons (sign : Char) (text : List Char) : readSign sign (sign :: text) = some text := by
  rw [readSign, if_pos rfl]

theorem readDigits_succ (width value : Nat) (text : List Char) :
    readDigits (width + 1) value text = (readDigits width value text).bind fun read => readDigits 1 read.1 read.2 := by
  induction width generalizing value text with
  | zero => rfl
  | succ width ih =>
    cases text with
    | nil => rfl
    | cons c text =>
      rw [readDigits, readDigits]
      split
      · exact ih _ text
      · rfl

theorem readDigits_one {d : Nat} (digit : d < 10) (value : Nat) (text : List Char) :
    readDigits 1 value (Nat.digitChar d :: text) = some (10 * value + d, text) := by
  have all : ∀ d : Fin 10, (Nat.digitChar d).isDigit = true ∧ (Nat.digitChar d).toNat - '0'.toNat = d := by decide
  have read := all ⟨d, digit⟩
  rw [readDigits, if_pos read.1, readDigits, read.2]

theorem readDigits_digits {width n : Nat} (below : n < 10 ^ width) (value : Nat) (text : List Char) :
    readDigits width value (digits width n ++ text) = some (value * 10 ^ width + n, text) := by
  induction width generalizing n text with
  | zero =>
    rw [Nat.pow_zero] at below
    obtain rfl : n = 0 := by omega
    rw [digits, List.nil_append, readDigits, Nat.pow_zero, Nat.mul_one, Nat.add_zero]
  | succ width ih =>
    rw [Nat.pow_succ] at below
    rw [readDigits_succ, digits, List.append_assoc, ih (by omega), Option.bind_some, List.singleton_append,
      readDigits_one (Nat.mod_lt n (by decide)), Nat.pow_succ, ← Nat.mul_assoc]
    congr 2
    omega

theorem readDate_text {d : Date} (year : d.year < 10000) (text : List Char) : readDate (d.text ++ text) = some (d, text) := by
  have inYear := d.inYear
  have day := d.day_le
  have fields : d.text ++ text = digits 4 d.year ++ ('-' :: (digits 2 d.month ++ ('-' :: (digits 2 d.day ++ text)))) := by
    simp only [Date.text, List.append_assoc, List.cons_append]
  simp only [fields, readDate, @readDigits_digits 4 d.year year, readSign_cons,
    @readDigits_digits 2 d.month (by omega),
    @readDigits_digits 2 d.day (by omega), Option.bind_eq_bind, Option.bind_some, Nat.zero_mul, Nat.zero_add,
    dif_pos (And.intro d.inYear d.inMonth)]

theorem readClock_clock {second : Nat} (inDay : second < 86400) (text : List Char) :
    readClock (clock second ++ text) = some (second, text) := by
  have fields : clock second ++ text =
      digits 2 (second / 3600) ++ (':' :: (digits 2 (second / 60 % 60) ++ (':' :: (digits 2 (second % 60) ++ text)))) := by
    simp only [clock, List.append_assoc, List.cons_append]
  have hours : second / 3600 < 10 ^ 2 := by omega
  have minutes : second / 60 % 60 < 10 ^ 2 := by omega
  have seconds : second % 60 < 10 ^ 2 := by omega
  have whole : 3600 * (second / 3600) + 60 * (second / 60 % 60) + second % 60 = second := by omega
  simp only [fields, readClock, readDigits_digits hours, readDigits_digits minutes, readDigits_digits seconds, readSign_cons,
    Option.bind_eq_bind, Option.bind_some, Nat.zero_mul, Nat.zero_add, whole]
  rw [if_pos (by omega)]

theorem readStamp_stamp {d : Date} {second : Nat} (year : d.year < 10000) (inDay : second < 86400) :
    readStamp (stamp d second) = some (d, second) := by
  simp only [readStamp, stamp, readDate_text year, readClock_clock inDay, readSign_cons, Option.bind_eq_bind, Option.bind_some,
    if_true]

example : (readStamp "2024-02-29T00:00:00Z".toList).isSome = true ∧ (readStamp "2023-02-29T00:00:00Z".toList).isSome = false := by
  decide

end Calendar
