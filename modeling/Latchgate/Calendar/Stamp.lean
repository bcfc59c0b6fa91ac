import Mathlib.Data.List.Basic
import Mathlib.Data.Nat.Find
import Mathlib.Algebra.Group.Nat.Defs

/-! Dates and times of day, and the texts that are sorted as they are. -/

namespace Calendar

/-! Numbers in a fixed number of digits. -/

def digits : Nat → Nat → List Char
  | 0, _ => []
  | width + 1, n => digits width (n / 10) ++ [Nat.digitChar (n % 10)]

theorem length_digits (width n : Nat) : (digits width n).length = width := by
  induction width generalizing n with
  | zero => rfl
  | succ width ih => rw [digits, List.length_append, ih, List.length_singleton]

theorem append_lt_append {u v x y : List Char} (same : u.length = v.length) : u ++ x < v ++ y ↔ u < v ∨ u = v ∧ x < y := by
  induction u generalizing v with
  | nil =>
    obtain rfl := List.length_eq_zero_iff.mp same.symm
    simp only [List.nil_append, List.lt_irrefl, true_and, false_or]
  | cons c u ih =>
    cases v with
    | nil => cases same
    | cons d v =>
      have later := ih (Nat.succ.inj same)
      rw [List.cons_append, List.cons_append, List.cons_lt_cons_iff, List.cons_lt_cons_iff, later, List.cons.injEq]
      tauto

theorem digitChar_lt {a b : Nat} (first : a < 10) (second : b < 10) : Nat.digitChar a < Nat.digitChar b ↔ a < b := by
  have all : ∀ x : Fin 10, ∀ y : Fin 10, Nat.digitChar x < Nat.digitChar y ↔ x < y := by decide
  exact all ⟨a, first⟩ ⟨b, second⟩

theorem digitChar_inj {a b : Nat} (first : a < 10) (second : b < 10) : Nat.digitChar a = Nat.digitChar b ↔ a = b := by
  have all : ∀ x : Fin 10, ∀ y : Fin 10, Nat.digitChar x = Nat.digitChar y ↔ x = y := by decide
  rw [← Fin.mk.injEq a first b second]
  exact all ⟨a, first⟩ ⟨b, second⟩

theorem div_mod_lt {a b : Nat} (m : Nat) (positive : 0 < m) : a < b ↔ a / m < b / m ∨ a / m = b / m ∧ a % m < b % m := by
  have first := Nat.div_add_mod a m
  have second := Nat.div_add_mod b m
  have below := Nat.mod_lt a positive
  have under := Nat.mod_lt b positive
  constructor
  · intro less
    rcases Nat.lt_or_eq_of_le (Nat.div_le_div_right (c := m) (Nat.le_of_lt less)) with quotient | same
    · exact .inl quotient
    · rw [same] at first
      exact .inr ⟨same, by omega⟩
  · rintro (quotient | ⟨same, rest⟩)
    · have whole := Nat.mul_le_mul_left m quotient
      rw [Nat.mul_succ] at whole
      omega
    · rw [same] at first
      omega

theorem digits_inj {width a b : Nat} (first : a < 10 ^ width) (second : b < 10 ^ width) :
    digits width a = digits width b ↔ a = b := by
  refine ⟨fun same => ?_, fun same => by rw [same]⟩
  induction width generalizing a b with
  | zero =>
    rw [Nat.pow_zero] at first second
    omega
  | succ width ih =>
    rw [Nat.pow_succ] at first second
    rw [digits, digits] at same
    obtain ⟨front, last⟩ := List.append_inj same (by rw [length_digits, length_digits])
    have tens := @ih (a / 10) (b / 10) (by omega) (by omega) front
    have ones := (digitChar_inj (Nat.mod_lt a (by decide)) (Nat.mod_lt b (by decide))).mp (List.singleton_inj.mp last)
    omega

theorem digits_lt {width a b : Nat} (first : a < 10 ^ width) (second : b < 10 ^ width) :
    digits width a < digits width b ↔ a < b := by
  induction width generalizing a b with
  | zero =>
    rw [Nat.pow_zero] at first second
    simp only [digits, List.lt_irrefl, false_iff]
    omega
  | succ width ih =>
    rw [Nat.pow_succ] at first second
    have tens : a / 10 < 10 ^ width ∧ b / 10 < 10 ^ width := by omega
    have ones := digitChar_lt (Nat.mod_lt a (by decide)) (Nat.mod_lt b (by decide))
    rw [digits, digits, append_lt_append (by rw [length_digits, length_digits]), ih tens.1 tens.2, digits_inj tens.1 tens.2,
      List.cons_lt_cons_iff, ones, @div_mod_lt a b 10 (by decide)]
    simp only [List.lt_irrefl, and_false, or_false]

/-- What comes behind equal numbers decides. -/
theorem digits_append_lt {width a b : Nat} {x y : List Char} (first : a < 10 ^ width) (second : b < 10 ^ width) :
    digits width a ++ x < digits width b ++ y ↔ a < b ∨ a = b ∧ x < y := by
  rw [append_lt_append (by rw [length_digits, length_digits]), digits_lt first second, digits_inj first second]

/-! Dates. -/

def leap (year : Nat) : Bool :=
  year % 4 = 0 ∧ (year % 100 ≠ 0 ∨ year % 400 = 0)

def monthLength (leap : Bool) (month : Nat) : Nat :=
  if month = 2 then if leap then 29 else 28
  else if month = 4 ∨ month = 6 ∨ month = 9 ∨ month = 11 then 30
  else 31

/-- The days of a year before a month. -/
def daysBeforeMonth (leap : Bool) : Nat → Nat
  | 0 => 0
  | 1 => 0
  | month + 1 => daysBeforeMonth leap month + monthLength leap month

/-- The days before a year, from the beginning of the year 0. -/
def daysBeforeYear (year : Nat) : Nat :=
  365 * year + (year + 3) / 4 + (year + 399) / 400 - (year + 99) / 100

structure Date where
  year : Nat
  month : Nat
  day : Nat
  inYear : 1 ≤ month ∧ month ≤ 12
  inMonth : 1 ≤ day ∧ day ≤ monthLength (leap year) month

theorem daysBeforeYear_succ (year : Nat) : daysBeforeYear (year + 1) = daysBeforeYear year + if leap year then 366 else 365 := by
  unfold daysBeforeYear leap
  split_ifs with leaping
  · simp only [decide_eq_true_eq] at leaping
    omega
  · simp only [decide_eq_true_eq] at leaping
    omega

theorem daysBeforeYear_mono {first second : Nat} (le : first ≤ second) : daysBeforeYear first ≤ daysBeforeYear second := by
  induction le with
  | refl => exact Nat.le_refl _
  | step _ ih =>
    rw [daysBeforeYear_succ]
    exact Nat.le_trans ih (Nat.le_add_right _ _)

/-- The months of a year are behind each other, and fill it. -/
theorem daysBeforeMonth_next {leaping : Bool} {month : Nat} (inYear : 1 ≤ month ∧ month ≤ 12) :
    daysBeforeMonth leaping (month + 1) = daysBeforeMonth leaping month + monthLength leaping month := by
  obtain ⟨month, rfl⟩ := Nat.exists_eq_add_of_le' inYear.1
  rfl

theorem daysBeforeMonth_mono {leaping : Bool} {first second : Nat} (positive : 1 ≤ first) (le : first ≤ second) (most : second ≤ 13) :
    daysBeforeMonth leaping first ≤ daysBeforeMonth leaping second := by
  induction le with
  | refl => exact Nat.le_refl _
  | @step later before ih =>
    have here : first ≤ later := before
    rw [daysBeforeMonth_next ⟨by omega, by omega⟩]
    exact Nat.le_trans (ih (by omega)) (Nat.le_add_right _ _)

theorem daysBeforeMonth_year (leaping : Bool) : daysBeforeMonth leaping 13 = if leaping then 366 else 365 := by
  cases leaping <;> rfl

namespace Date

/-- The days before a date, from the beginning of the year 0. -/
def days (d : Date) : Nat :=
  daysBeforeYear d.year + daysBeforeMonth (leap d.year) d.month + (d.day - 1)

def text (d : Date) : List Char :=
  digits 4 d.year ++ '-' :: (digits 2 d.month ++ '-' :: digits 2 d.day)

theorem day_le (d : Date) : d.day ≤ 31 := by
  have most := d.inMonth.2
  unfold monthLength at most
  split_ifs at most <;> omega

/-- A date is before the next month of its year. -/
theorem days_lt_month (d : Date) : d.days < daysBeforeYear d.year + daysBeforeMonth (leap d.year) (d.month + 1) := by
  rw [days, daysBeforeMonth_next d.inYear]
  have inMonth := d.inMonth
  omega

theorem days_lt_year (d : Date) : d.days < daysBeforeYear (d.year + 1) := by
  have whole := @daysBeforeMonth_mono (leap d.year) (d.month + 1) 13 (by omega) (by have := d.inYear; omega) (Nat.le_refl _)
  rw [daysBeforeMonth_year] at whole
  have month := d.days_lt_month
  rw [daysBeforeYear_succ]
  omega

theorem year_le_days (d : Date) : daysBeforeYear d.year ≤ d.days := by
  rw [days]
  omega

variable {a b : Date}

theorem days_lt_of_year (earlier : a.year < b.year) : a.days < b.days :=
  Nat.lt_of_lt_of_le a.days_lt_year (Nat.le_trans (daysBeforeYear_mono earlier) b.year_le_days)

theorem days_lt_of_month (same : a.year = b.year) (earlier : a.month < b.month) : a.days < b.days := by
  have before := a.days_lt_month
  have inYear := b.inYear
  have months := @daysBeforeMonth_mono (leap b.year) (a.month + 1) b.month (by omega) earlier (by omega)
  rw [same] at before
  rw [days.eq_def b]
  omega

theorem days_lt_of_day (same : a.year = b.year) (month : a.month = b.month) (earlier : a.day < b.day) : a.days < b.days := by
  have first := a.inMonth
  rw [days, days, same, month]
  omega

/-- Dates are in order as their years, months and days are. -/
theorem days_lt_iff : a.days < b.days ↔
    a.year < b.year ∨ a.year = b.year ∧ (a.month < b.month ∨ a.month = b.month ∧ a.day < b.day) := by
  constructor
  · intro less
    rcases Nat.lt_trichotomy a.year b.year with earlier | same | later
    · exact .inl earlier
    · rcases Nat.lt_trichotomy a.month b.month with earlier | month | later
      · exact .inr ⟨same, .inl earlier⟩
      · rcases Nat.lt_or_ge a.day b.day with earlier | later
        · exact .inr ⟨same, .inr ⟨month, earlier⟩⟩
        · rcases Nat.lt_or_eq_of_le later with later | day
          · exact absurd (days_lt_of_day same.symm month.symm later) (Nat.lt_asymm less)
          · rw [days, days, same, month, day] at less
            exact absurd less (Nat.lt_irrefl _)
      · exact absurd (days_lt_of_month same.symm later) (Nat.lt_asymm less)
    · exact absurd (days_lt_of_year later) (Nat.lt_asymm less)
  · rintro (earlier | ⟨same, earlier | ⟨month, earlier⟩⟩)
    · exact days_lt_of_year earlier
    · exact days_lt_of_month same earlier
    · exact days_lt_of_day same month earlier

theorem days_eq_iff : a.days = b.days ↔ a.year = b.year ∧ a.month = b.month ∧ a.day = b.day := by
  have first := @days_lt_iff a b
  have second := @days_lt_iff b a
  omega

/-- Texts that begin with dates are sorted by the dates. -/
theorem text_append_lt {x y : List Char} (first : a.year < 10000) (second : b.year < 10000) :
    a.text ++ x < b.text ++ y ↔ a.days < b.days ∨ a.days = b.days ∧ x < y := by
  have months := And.intro a.inYear b.inYear
  have days := And.intro a.day_le b.day_le
  have fields : ∀ d : Date, ∀ z : List Char,
      d.text ++ z = digits 4 d.year ++ ('-' :: (digits 2 d.month ++ ('-' :: (digits 2 d.day ++ z)))) := by
    intro d z
    simp only [text, List.append_assoc, List.cons_append]
  rw [fields, fields, digits_append_lt first second, List.cons_lt_cons_self, digits_append_lt (by omega) (by omega),
    List.cons_lt_cons_self, digits_append_lt (by omega) (by omega), days_lt_iff, days_eq_iff]
  tauto

end Date

/-- The year of a day. -/
def yearOf (n : Nat) : Nat :=
  Nat.findGreatest (fun year => daysBeforeYear year ≤ n) (n / 365)

theorem yearOf_le (n : Nat) : daysBeforeYear (yearOf n) ≤ n :=
  Nat.findGreatest_spec (P := fun year => daysBeforeYear year ≤ n) (Nat.zero_le _) (Nat.zero_le n)

theorem lt_yearOf_succ (n : Nat) : n < daysBeforeYear (yearOf n + 1) := by
  by_contra least
  rw [Nat.not_lt] at least
  have most : yearOf n + 1 ≤ n / 365 := by
    unfold daysBeforeYear at least
    omega
  exact Nat.findGreatest_is_greatest (Nat.lt_succ_self _) most least

/-- The month of a day of a year. -/
def monthOf (leaping : Bool) (ofYear : Nat) : Nat :=
  Nat.findGreatest (fun month => daysBeforeMonth leaping month ≤ ofYear) 12

section Months
variable (leaping : Bool) (ofYear : Nat)

theorem one_le_monthOf : 1 ≤ monthOf leaping ofYear :=
  Nat.le_findGreatest (by decide) (Nat.zero_le ofYear)

theorem monthOf_le : monthOf leaping ofYear ≤ 12 :=
  Nat.findGreatest_le 12

theorem daysBeforeMonth_monthOf : daysBeforeMonth leaping (monthOf leaping ofYear) ≤ ofYear :=
  Nat.findGreatest_spec (P := fun month => daysBeforeMonth leaping month ≤ ofYear) (Nat.zero_le _) (Nat.zero_le ofYear)

theorem lt_monthOf_succ (inYear : ofYear < if leaping then 366 else 365) :
    ofYear < daysBeforeMonth leaping (monthOf leaping ofYear + 1) := by
  have last := monthOf_le leaping ofYear
  rcases Nat.lt_or_eq_of_le last with earlier | december
  · by_contra least
    exact Nat.findGreatest_is_greatest (Nat.lt_succ_self _) earlier (Nat.not_lt.mp least)
  · rw [december, daysBeforeMonth_year]
    exact inYear

end Months

theorem ofYear_lt (n : Nat) : n - daysBeforeYear (yearOf n) < if leap (yearOf n) then 366 else 365 := by
  have first := yearOf_le n
  have last := lt_yearOf_succ n
  rw [daysBeforeYear_succ] at last
  omega

/-- The date so many days after the first one. -/
def dateOf (n : Nat) : Date where
  year := yearOf n
  month := monthOf (leap (yearOf n)) (n - daysBeforeYear (yearOf n))
  day := n - daysBeforeYear (yearOf n) -
    daysBeforeMonth (leap (yearOf n)) (monthOf (leap (yearOf n)) (n - daysBeforeYear (yearOf n))) + 1
  inYear := ⟨one_le_monthOf _ _, monthOf_le _ _⟩
  inMonth := by
    have month := daysBeforeMonth_monthOf (leap (yearOf n)) (n - daysBeforeYear (yearOf n))
    have last := lt_monthOf_succ (leap (yearOf n)) _ (ofYear_lt n)
    rw [daysBeforeMonth_next ⟨one_le_monthOf _ _, monthOf_le _ _⟩] at last
    omega

theorem days_dateOf (n : Nat) : (dateOf n).days = n := by
  have year := yearOf_le n
  have month := daysBeforeMonth_monthOf (leap (yearOf n)) (n - daysBeforeYear (yearOf n))
  simp only [Date.days, dateOf]
  omega

theorem year_dateOf {n : Nat} (before : n < daysBeforeYear 10000) : (dateOf n).year < 10000 := by
  by_contra after
  have least := Nat.le_trans (daysBeforeYear_mono (Nat.not_lt.mp after)) (yearOf_le n)
  omega

example : (dateOf 740000).year = 2026 ∧ (dateOf 740000).month = 1 ∧ (dateOf 740000).day = 19 := by decide

/-! Times of day. -/

/-- Hours, minutes and seconds of a second of the day. -/
def clock (second : Nat) : List Char :=
  digits 2 (second / 3600) ++ ':' :: (digits 2 (second / 60 % 60) ++ ':' :: digits 2 (second % 60))

theorem clock_append_lt {a b : Nat} {x y : List Char} (first : a < 86400) (second : b < 86400) :
    clock a ++ x < clock b ++ y ↔ a < b ∨ a = b ∧ x < y := by
  have fields : ∀ n : Nat, ∀ z : List Char,
      clock n ++ z = digits 2 (n / 3600) ++ (':' :: (digits 2 (n / 60 % 60) ++ (':' :: (digits 2 (n % 60) ++ z)))) := by
    intro n z
    simp only [clock, List.append_assoc, List.cons_append]
  rw [fields, fields, digits_append_lt (by omega) (by omega), List.cons_lt_cons_self, digits_append_lt (by omega) (by omega),
    List.cons_lt_cons_self, digits_append_lt (by omega) (by omega)]
  by_cases less : x < y
  · simp only [less, and_true]
    omega
  · simp only [less, and_false, or_false]
    omega

/-- So many groups of three digits, without those at the end that are zero. -/
def groups : Nat → Nat → List Char
  | 0, _ => []
  | count + 1, n => if n = 0 then [] else digits 3 (n / 1000 ^ count) ++ groups count (n % 1000 ^ count)

/-- Nothing, milliseconds, microseconds or nanoseconds. -/
def fraction (nanos : Nat) : List Char :=
  if nanos = 0 then [] else '.' :: groups 3 nanos

section Fraction
variable {c : Char} {back : List Char}

theorem digitChar_ge (n : Nat) (below : n < 10) : ¬Nat.digitChar n < '0' := by
  have all : ∀ x : Fin 10, ¬Nat.digitChar x < '0' := by decide
  exact all ⟨n, below⟩

theorem digits_head (width n : Nat) : ∃ d rest, digits (width + 1) n = d :: rest ∧ ¬d < '0' := by
  induction width generalizing n with
  | zero => exact ⟨_, [], rfl, digitChar_ge _ (Nat.mod_lt n (by decide))⟩
  | succ width ih =>
    obtain ⟨d, rest, split, digit⟩ := ih (n / 10)
    exact ⟨d, rest ++ [Nat.digitChar (n % 10)], by rw [digits, split, List.cons_append], digit⟩

/-- A text that goes on with less than a digit is before one that goes on with
a digit. -/
theorem lt_digits (low : c < '0') (width n : Nat) (rest : List Char) :
    c :: back < digits (width + 1) n ++ rest ∧ ¬digits (width + 1) n ++ rest < c :: back := by
  obtain ⟨d, more, split, digit⟩ := digits_head width n
  have less : c < d := Std.lt_of_lt_of_le low (Char.not_lt.mp digit)
  rw [split, List.cons_append, List.cons_lt_cons_iff, List.cons_lt_cons_iff]
  refine ⟨.inl less, ?_⟩
  rintro (greater | ⟨same, -⟩)
  · exact Char.lt_asymm less greater
  · exact Char.lt_irrefl c (same ▸ less)

theorem groups_lt (low : c < '0') {count a b : Nat} (first : a < 1000 ^ count) (second : b < 1000 ^ count) :
    groups count a ++ c :: back < groups count b ++ c :: back ↔ a < b := by
  induction count generalizing a b with
  | zero =>
    rw [Nat.pow_zero] at first second
    simp only [groups, List.lt_irrefl, false_iff]
    omega
  | succ count ih =>
    have positive : 0 < 1000 ^ count := Nat.pow_pos (by decide)
    by_cases nothing : a = 0
    · by_cases none_ : b = 0
      · simp only [nothing, none_, List.lt_irrefl, Nat.lt_irrefl]
      · have less := @lt_digits c back low 2 (b / 1000 ^ count) (groups count (b % 1000 ^ count) ++ c :: back)
        simp only [groups, if_pos nothing, if_neg none_, List.nil_append, List.append_assoc, less.1, true_iff]
        omega
    · by_cases none_ : b = 0
      · have less := @lt_digits c back low 2 (a / 1000 ^ count) (groups count (a % 1000 ^ count) ++ c :: back)
        simp only [groups, if_neg nothing, if_pos none_, List.nil_append, List.append_assoc, less.2, false_iff]
        omega
      · rw [Nat.pow_succ] at first second
        have tens : ∀ n, n < 1000 ^ count * 1000 → n / 1000 ^ count < 10 ^ 3 := fun n below =>
          Nat.div_lt_of_lt_mul below
        simp only [groups, if_neg nothing, if_neg none_, List.append_assoc]
        rw [digits_append_lt (tens a first) (tens b second), ih (Nat.mod_lt a positive) (Nat.mod_lt b positive),
          ← div_mod_lt _ positive]

/-- Fractions are sorted as they are in size, where what follows them is less
than a digit and a point. -/
theorem fraction_lt (low : c < '0') (point : c < '.') {a b : Nat} (first : a < 10 ^ 9) (second : b < 10 ^ 9) :
    fraction a ++ c :: back < fraction b ++ c :: back ↔ a < b := by
  by_cases nothing : a = 0
  · by_cases none_ : b = 0
    · simp only [nothing, none_, List.lt_irrefl, Nat.lt_irrefl]
    · simp only [fraction, if_pos nothing, if_neg none_, List.nil_append, List.cons_append, List.cons_lt_cons_iff, point, true_or,
        true_iff]
      omega
  · by_cases none_ : b = 0
    · have greater : ¬ '.' < c := Char.lt_asymm point
      have other : '.' ≠ c := fun same => Char.lt_irrefl c (same ▸ point)
      simp only [fraction, if_neg nothing, if_pos none_, List.nil_append, List.cons_append, List.cons_lt_cons_iff, greater, other,
        false_and, or_self, false_iff]
      omega
    · simp only [fraction, if_neg nothing, if_neg none_, List.cons_append, List.cons_lt_cons_self]
      exact groups_lt low first second

end Fraction

/-- What begins with less than a digit is before what begins with a date. -/
theorem lt_text {c : Char} (low : c < '0') (back : List Char) (d : Date) (rest : List Char) :
    c :: back < d.text ++ rest ∧ ¬d.text ++ rest < c :: back := by
  have whole : d.text ++ rest = digits 4 d.year ++ ('-' :: (digits 2 d.month ++ '-' :: digits 2 d.day) ++ rest) := by
    rw [Date.text, List.append_assoc]
  rw [whole]
  exact lt_digits low 3 d.year _

/-! Texts of a nanosecond of a day. -/

def rfc3339 (day nanos : Nat) : List Char :=
  (dateOf day).text ++ 'T' :: (clock (nanos / 10 ^ 9) ++ (fraction (nanos % 10 ^ 9) ++ "+00:00".toList))

/-- The same without the fraction, as SQL has it. -/
def datetime (day nanos : Nat) : List Char :=
  (dateOf day).text ++ ' ' :: clock (nanos / 10 ^ 9)

section Texts
variable {day other nanos later : Nat}

theorem rfc3339_lt (first : day < daysBeforeYear 10000) (second : other < daysBeforeYear 10000)
    (inDay : nanos < 86400 * 10 ^ 9) (inOther : later < 86400 * 10 ^ 9) :
    rfc3339 day nanos < rfc3339 other later ↔ day < other ∨ day = other ∧ nanos < later := by
  have offset : "+00:00".toList = '+' :: "00:00".toList := rfl
  rw [rfc3339, rfc3339, Date.text_append_lt (year_dateOf first) (year_dateOf second), days_dateOf, days_dateOf,
    List.cons_lt_cons_self, clock_append_lt (by omega) (by omega), offset,
    fraction_lt (by decide) (by decide) (Nat.mod_lt nanos (by decide)) (Nat.mod_lt later (by decide)),
    ← div_mod_lt _ (by decide)]

/-- Of two texts of these kinds the dates decide, and on one day the sign
between date and time does. -/
theorem rfc3339_lt_datetime (first : day < daysBeforeYear 10000) (second : other < daysBeforeYear 10000) :
    rfc3339 day nanos < datetime other later ↔ day < other := by
  have sign : ¬ 'T' < ' ' ∧ 'T' ≠ ' ' := by decide
  rw [rfc3339, datetime, Date.text_append_lt (year_dateOf first) (year_dateOf second), days_dateOf, days_dateOf,
    List.cons_lt_cons_iff]
  simp only [sign.1, sign.2, false_and, or_self, and_false, or_false]

end Texts

end Calendar
