import Latchgate.Calendar.Civil

/-! Texts of milliseconds, counted from the beginning of the year 0. -/

namespace Calendar

def millisOfDay : Nat :=
  86400000

def millis (n : Nat) : List Char :=
  (dateOf (n / millisOfDay)).text ++ 'T' :: (clock (n % millisOfDay / 1000) ++ '.' :: (digits 3 (n % 1000) ++ ['Z']))

def readMillis (text : List Char) : Option Nat := do
  let (date, text) ← readDate text
  let text ← readSign 'T' text
  let (second, text) ← readClock text
  let text ← readSign '.' text
  let (fraction, text) ← readDigits 3 0 text
  let text ← readSign 'Z' text
  if text = [] then some (millisOfDay * date.days + 1000 * second + fraction) else none

/-- The first millisecond after the year 9999. -/
def lastMillis : Nat :=
  millisOfDay * daysBeforeYear 10000

theorem year_of_millis {n : Nat} (before : n < lastMillis) : (dateOf (n / millisOfDay)).year < 10000 :=
  year_dateOf (Nat.div_lt_of_lt_mul before)

theorem readMillis_millis {n : Nat} (before : n < lastMillis) : readMillis (millis n) = some n := by
  have clock_ : n % millisOfDay / 1000 < 86400 := by
    unfold millisOfDay
    omega
  have fraction_ : n % 1000 < 10 ^ 3 := Nat.mod_lt n (by decide)
  simp only [readMillis, millis, readDate_text (year_of_millis before), readSign_cons, Option.bind_eq_bind, Option.bind_some,
    readClock_clock clock_, readDigits_digits fraction_, days_dateOf, if_true, Option.some.injEq]
  unfold millisOfDay
  omega

theorem millis_lt {m n : Nat} (first : m < lastMillis) (second : n < lastMillis) : millis m < millis n ↔ m < n := by
  have inDay : ∀ k, k % millisOfDay / 1000 < 86400 := fun k => by
    unfold millisOfDay
    omega
  have inSecond : ∀ k, k % 1000 < 10 ^ 3 := fun k => Nat.mod_lt k (by decide)
  rw [millis, millis, Date.text_append_lt (year_of_millis first) (year_of_millis second), days_dateOf, days_dateOf,
    List.cons_lt_cons_self, clock_append_lt (inDay m) (inDay n), List.cons_lt_cons_self,
    digits_append_lt (inSecond m) (inSecond n)]
  simp only [List.lt_irrefl, and_false, or_false]
  unfold millisOfDay
  omega

end Calendar
