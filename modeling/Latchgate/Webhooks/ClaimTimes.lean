import Latchgate.Calendar.Stamp
import Latchgate.Webhooks.Claims
import Mathlib.Algebra.Group.Int.Defs

namespace Latchgate

/-! Instants are nanoseconds of the Unix time, days are counted from the
beginning of the year 0. -/

def dayOf (t : Int) : Int :=
  t / (86400 * 10 ^ 9) + 719528

def nanosOf (t : Int) : Nat :=
  (t % (86400 * 10 ^ 9)).toNat

/-- Its year has at most four digits. -/
def FourDigits (t : Int) : Prop :=
  dayOf t < Calendar.daysBeforeYear 10000

instance (t : Int) : Decidable (FourDigits t) :=
  inferInstanceAs (Decidable (_ < _))

/-- The time of a claim that is just stale. -/
def staleAt (now : Int) : Int :=
  now - staleClaimSeconds * 10 ^ 9

/-- What is documented of the texts of the time library and of SQLite: years of
four digits and others with a sign, and for a poll in the years 0 to 9999 the
time 300 seconds before, of which SQLite keeps the milliseconds. -/
structure StampTexts where
  rfc3339 : Int → String
  threshold : Int → String
  reads : Int → Int
  stamped : ∀ t, 0 ≤ dayOf t → FourDigits t → rfc3339 t = String.ofList (Calendar.rfc3339 (dayOf t).toNat (nanosOf t))
  before : ∀ t, dayOf t < 0 → (rfc3339 t).toList.head? = some '-'
  after : ∀ t, ¬FourDigits t → (rfc3339 t).toList.head? = some '+'
  millisecond : ∀ t, 10 ^ 6 ∣ reads t ∧ t - 10 ^ 6 < reads t ∧ reads t < t + 10 ^ 6
  shifted : ∀ now, 0 ≤ dayOf (staleAt now) → FourDigits now →
    threshold now = String.ofList (Calendar.datetime (dayOf (reads (staleAt now))).toNat (nanosOf (reads (staleAt now))))

section Exact
variable (texts : StampTexts)

/-- The statement that releases stale claims releases one of that time exactly
if it is stale. -/
def ReleasesExactly (t now : Int) : Prop :=
  ∀ r : OutboxRow, r.claimedBy ≠ none → r.claimedAt = some (texts.rfc3339 t) →
    ((WebhookOutbox.releaseStale (texts.threshold now) r).claimedBy = none ↔ t < staleAt now)

/-- A free row is due exactly from its time on. -/
def DueExactly (next now : Int) : Prop :=
  ∀ r : OutboxRow, r.Is .pending → r.nextAttemptAt = texts.rfc3339 next →
    (WebhookOutbox.claimable (texts.rfc3339 now) r = true ↔ next ≤ now)

/-- A stale claim of the day of the threshold. -/
def StaleOfSameDay (t now : Int) : Prop :=
  t < staleAt now ∧ dayOf t = dayOf (texts.reads (staleAt now))

/-- A claim that is not stale, before the midnight to which the threshold is
rounded. -/
def FreshOfDayBefore (t now : Int) : Prop :=
  staleAt now ≤ t ∧ dayOf t < dayOf (texts.reads (staleAt now))

end Exact

namespace StampTexts
variable {texts : StampTexts} {t now : Int}

/-- Rounding does not lead to an earlier day. -/
theorem dayOf_reads (texts : StampTexts) (t : Int) : dayOf t ≤ dayOf (texts.reads t) ∧ texts.reads t < t + 10 ^ 6 := by
  obtain ⟨⟨k, whole⟩, least, most⟩ := texts.millisecond t
  unfold dayOf
  omega

theorem signed_lt (text : String) {c : Char} (low : c < '0') (sign : text.toList.head? = some c) (d : Calendar.Date) (rest : List Char) :
    text < String.ofList (d.text ++ rest) ∧ ¬String.ofList (d.text ++ rest) < text := by
  obtain ⟨back, split⟩ := List.head?_eq_some_iff.mp sign
  rw [String.lt_iff, String.lt_iff, String.toList_ofList, split]
  exact Calendar.lt_text low back d rest

theorem toNat_lt_iff {a b : Int} (first : 0 ≤ a) (second : 0 ≤ b) : a.toNat < b.toNat ↔ a < b := by
  omega

theorem toNat_lt_year {t : Int} (first : 0 ≤ dayOf t) (four : FourDigits t) : (dayOf t).toNat < Calendar.daysBeforeYear 10000 := by
  unfold FourDigits at four
  omega

/-- The text of a claim is below the threshold if the claim is of an earlier
day, or its year has too many digits. -/
theorem rfc3339_lt_threshold (supported : 0 ≤ dayOf (staleAt now)) (four : FourDigits now) :
    texts.rfc3339 t < texts.threshold now ↔ dayOf t < dayOf (texts.reads (staleAt now)) ∨ ¬FourDigits t := by
  obtain ⟨later, near⟩ := texts.dayOf_reads (staleAt now)
  have known : FourDigits (texts.reads (staleAt now)) := by
    unfold FourDigits dayOf staleAt staleClaimSeconds at *
    omega
  rw [texts.shifted now supported four]
  by_cases past : dayOf t < 0
  · have less := (signed_lt _ (by decide) (texts.before t past) (Calendar.dateOf (dayOf (texts.reads (staleAt now))).toNat)
      (' ' :: Calendar.clock (nanosOf (texts.reads (staleAt now)) / 10 ^ 9))).1
    exact ⟨fun _ => .inl (by omega), fun _ => less⟩
  · by_cases future : FourDigits t
    · rw [texts.stamped t (by omega) future, String.lt_iff, String.toList_ofList, String.toList_ofList,
        Calendar.rfc3339_lt_datetime (toNat_lt_year (by omega) future) (toNat_lt_year (by omega) known),
        toNat_lt_iff (by omega) (by omega)]
      simp only [future, not_true_eq_false, or_false]
    · have less := (signed_lt _ (by decide) (texts.after t future) (Calendar.dateOf (dayOf (texts.reads (staleAt now))).toNat)
        (' ' :: Calendar.clock (nanosOf (texts.reads (staleAt now)) / 10 ^ 9))).1
      exact ⟨fun _ => .inr future, fun _ => less⟩

/-- What is assumed of an `OutboxClock`, where the digits that are dropped are
cut off. -/
theorem stale_of_below (supported : 0 ≤ dayOf (staleAt now)) (four : FourDigits now) (digits : FourDigits t)
    (cut : texts.reads (staleAt now) ≤ staleAt now) (below : texts.rfc3339 t < texts.threshold now) :
    t + staleClaimSeconds * 10 ^ 9 ≤ now := by
  rcases (rfc3339_lt_threshold supported four).mp below with earlier | more
  · have day : dayOf t < dayOf (staleAt now) := by
      unfold dayOf at earlier ⊢
      omega
    unfold dayOf staleAt at day
    omega
  · exact absurd digits more

theorem order_iff (t now : Int) : dayOf now < dayOf t ∨ dayOf now = dayOf t ∧ nanosOf now < nanosOf t ↔ now < t := by
  unfold dayOf nanosOf
  omega

theorem nanosOf_lt (t : Int) : nanosOf t < 86400 * 10 ^ 9 := by
  unfold nanosOf
  omega

/-- The text of a time is at or below that of a poll if the time is, or its
year has too many digits. -/
theorem rfc3339_le (past : 0 ≤ dayOf now) (four : FourDigits now) :
    texts.rfc3339 t ≤ texts.rfc3339 now ↔ t ≤ now ∨ ¬FourDigits t := by
  have shown := texts.stamped now past four
  have signed : ∀ {c : Char}, c < '0' → (texts.rfc3339 t).toList.head? = some c → texts.rfc3339 t ≤ texts.rfc3339 now := by
    intro c low sign
    rw [shown, Calendar.rfc3339]
    exact String.not_lt.mp (signed_lt _ low sign _ _).2
  by_cases negative : dayOf t < 0
  · refine ⟨fun _ => .inl ?_, fun _ => signed (by decide) (texts.before t negative)⟩
    unfold dayOf at negative past
    omega
  · by_cases future : FourDigits t
    · have order := order_iff t now
      rw [← String.not_lt, shown, texts.stamped t (by omega) future, String.lt_iff, String.toList_ofList, String.toList_ofList,
        Calendar.rfc3339_lt (toNat_lt_year past four) (toNat_lt_year (by omega) future) (nanosOf_lt now) (nanosOf_lt t)]
      simp only [future, not_true_eq_false, or_false]
      omega
    · exact ⟨fun _ => .inr future, fun _ => signed (by decide) (texts.after t future)⟩

end StampTexts

section Exact
variable (texts : StampTexts) {t next now : Int}

theorem releaseStale_claimedBy {threshold claimedAt : String} {r : OutboxRow} (claimed : r.claimedBy ≠ none)
    (stamped : r.claimedAt = some claimedAt) :
    (WebhookOutbox.releaseStale threshold r).claimedBy = none ↔ claimedAt < threshold := by
  obtain ⟨by_, taken⟩ := Option.ne_none_iff_exists'.mp claimed
  simp only [WebhookOutbox.releaseStale, taken, stamped]
  by_cases below : claimedAt < threshold
  · simp only [below, if_true]
  · simp only [below, if_false, taken, reduceCtorEq]

theorem claimable_pending {now : String} {r : OutboxRow} (pending : r.Is .pending) :
    WebhookOutbox.claimable now r = true ↔ r.nextAttemptAt ≤ now := by
  obtain ⟨free, undelivered, live⟩ := pending
  simp only [WebhookOutbox.claimable, free, undelivered, live, true_and, decide_eq_true_eq]

theorem releasesExactly_iff_text : ReleasesExactly texts t now ↔ (texts.rfc3339 t < texts.threshold now ↔ t < staleAt now) := by
  constructor
  · intro exactly
    let row := OutboxRow.mk 0 "" "" "" "" 0 "" none none none (some "") (some (texts.rfc3339 t))
    have claimed : row.claimedBy ≠ none := Option.some_ne_none ""
    rw [← @releaseStale_claimedBy _ _ row claimed rfl]
    exact exactly row claimed rfl
  · intro agree r claimed stamped
    rw [releaseStale_claimedBy claimed stamped]
    exact agree

theorem dueExactly_iff_text : DueExactly texts next now ↔ (texts.rfc3339 next ≤ texts.rfc3339 now ↔ next ≤ now) := by
  constructor
  · intro exactly
    let row := OutboxRow.mk 0 "" "" "" "" 0 (texts.rfc3339 next) none none none none none
    have pending : row.Is .pending := ⟨rfl, rfl, rfl⟩
    rw [← @claimable_pending _ row pending]
    exact exactly row pending rfl
  · intro agree r pending stamped
    rw [claimable_pending pending, stamped]
    exact agree

/-- For a poll of the years 0 to 9999, and all times of claims and attempts: a
claim is released exactly where it is stale, unless it is of the day of the
threshold, or its year has more than four digits; a free row is due exactly
from its time on, unless that year has. -/
theorem release_and_due_exact (supported : 0 ≤ dayOf (staleAt now)) (four : FourDigits now) :
    (ReleasesExactly texts t now ↔ FourDigits t ∧ ¬StaleOfSameDay texts t now ∧ ¬FreshOfDayBefore texts t now) ∧
      (DueExactly texts next now ↔ FourDigits next) := by
  have later := (texts.dayOf_reads (staleAt now)).1
  have earlier : 0 ≤ dayOf now := by
    unfold dayOf staleAt at *
    omega
  have beyond : ∀ u : Int, ¬FourDigits u → now < u := by
    intro u more
    unfold FourDigits dayOf at *
    omega
  constructor
  · rw [releasesExactly_iff_text, StampTexts.rfc3339_lt_threshold supported four]
    by_cases digits : FourDigits t
    · have days : t < staleAt now → dayOf t ≤ dayOf (staleAt now) := by
        unfold dayOf
        omega
      simp only [digits, StaleOfSameDay, FreshOfDayBefore, not_true_eq_false, or_false, true_and]
      by_cases stale : t < staleAt now
      · simp only [stale, iff_true, true_and]
        omega
      · simp only [stale, iff_false, false_and, not_false_eq_true, true_and]
        omega
    · have after := beyond t digits
      have fresh : ¬t < staleAt now := by
        unfold staleAt
        omega
      simp only [digits, fresh, not_false_eq_true, or_true, iff_false, not_true_eq_false, false_and]
  · rw [dueExactly_iff_text, StampTexts.rfc3339_le earlier four]
    by_cases digits : FourDigits next
    · simp only [digits, not_true_eq_false, or_false]
    · have after := beyond next digits
      simp only [digits, not_false_eq_true, or_true, true_iff, iff_false]
      omega

end Exact

/-! A clock that has the documented texts. -/

def sampleRfc3339 (t : Int) : String :=
  if dayOf t < 0 then "-"
  else if FourDigits t then String.ofList (Calendar.rfc3339 (dayOf t).toNat (nanosOf t))
  else "+"

/-- Digits behind the third are cut off. -/
def sampleTexts : StampTexts where
  rfc3339 := sampleRfc3339
  threshold now :=
    let shifted := staleAt now / 10 ^ 6 * 10 ^ 6
    String.ofList (Calendar.datetime (dayOf shifted).toNat (nanosOf shifted))
  reads t := t / 10 ^ 6 * 10 ^ 6
  stamped t past four := by rw [sampleRfc3339, if_neg (by omega), if_pos four]
  before t past := by rw [sampleRfc3339, if_pos past]; rfl
  after t more := by
    have late : ¬dayOf t < 0 := by
      unfold FourDigits at more
      omega
    rw [sampleRfc3339, if_neg late, if_neg more]
    rfl
  millisecond t := ⟨⟨t / 10 ^ 6, by omega⟩, by omega, by omega⟩
  shifted _ _ _ := rfl

/-- 2026-01-01 at noon. -/
def noon : Int := 1767268800 * 10 ^ 9

theorem release_and_due_exact_noon :
    (ReleasesExactly sampleTexts (noon - 86400 * 10 ^ 9) noon ↔ FourDigits (noon - 86400 * 10 ^ 9) ∧
      ¬StaleOfSameDay sampleTexts (noon - 86400 * 10 ^ 9) noon ∧ ¬FreshOfDayBefore sampleTexts (noon - 86400 * 10 ^ 9) noon) ∧
      (DueExactly sampleTexts noon noon ↔ FourDigits noon) :=
  release_and_due_exact sampleTexts (by decide) (by decide)

/-- A claim of 11:00:00 is kept at noon. -/
theorem hour_old_claim_kept : ¬ReleasesExactly sampleTexts (noon - 3600 * 10 ^ 9) noon := by
  intro exactly
  let row := OutboxRow.mk 1 "event" "endpoint" "{}" "2026-01-01T10:59:00+00:00" 0 "2026-01-01T10:59:00+00:00" none none none
    (some "poller-1") (some "2026-01-01T11:00:00+00:00")
  have stamped : row.claimedAt = some (sampleTexts.rfc3339 (noon - 3600 * 10 ^ 9)) := by decide
  have released := (exactly row (Option.some_ne_none _) stamped).mpr (by decide)
  have kept : (WebhookOutbox.releaseStale (sampleTexts.threshold noon) row).claimedBy = some "poller-1" := by decide
  rw [kept] at released
  cases released

end Latchgate
