import Mathlib.Data.List.Range
import Mathlib.Algebra.BigOperators.Group.List.Basic
import Mathlib.Tactic.IntervalCases

/-!
# The calendar

Instants of the Gregorian calendar from 1970 on, and the seconds that have passed
before them.  The days of a year are counted month by month, and the days of the
epoch year by year.
-/

namespace CS162.Foundation

/-- A leap year. -/
def isLeapYear (year : Nat) : Bool := decide (year % 4 = 0 ∧ (year % 100 ≠ 0 ∨ year % 400 = 0))

/-- The days of a year. -/
def yearDays (year : Nat) : Nat := if isLeapYear year then 366 else 365

/-- The days of a month in a year without a leap day. -/
def commonDays (month : Nat) : Nat :=
  if month = 2 then 28
  else if month = 4 ∨ month = 6 ∨ month = 9 ∨ month = 11 then 30
  else 31

/-- The days of a month. -/
def monthDays (year month : Nat) : Nat :=
  if month = 2 ∧ isLeapYear year then 29 else commonDays month

/-- The days before a number of years after 1970. -/
def daysToYear : Nat → Nat
  | 0 => 0
  | years + 1 => daysToYear years + yearDays (1970 + years)

/-- The days of a year before a number of months have passed. -/
def daysToMonth (year : Nat) : Nat → Nat
  | 0 => 0
  | months + 1 => daysToMonth year months + monthDays year (months + 1)

/-- A second of the calendar. -/
@[ext]
structure Instant where
  year : Nat
  month : Nat
  day : Nat
  hour : Nat
  minute : Nat
  second : Nat
  since : 1970 ≤ year
  firstMonth : 1 ≤ month
  lastMonth : month ≤ 12
  firstDay : 1 ≤ day
  lastDay : day ≤ monthDays year month
  lastHour : hour < 24
  lastMinute : minute < 60
  lastSecond : second < 60

theorem monthDays_pos (year month : Nat) : 1 ≤ monthDays year month := by
  unfold monthDays commonDays
  split_ifs <;> omega

namespace Instant

/-- The days since the beginning of 1970. -/
def days (t : Instant) : Nat :=
  daysToYear (t.year - 1970) + daysToMonth t.year (t.month - 1) + (t.day - 1)

/-- The seconds since the beginning of 1970. -/
def seconds (t : Instant) : Nat := ((t.days * 24 + t.hour) * 60 + t.minute) * 60 + t.second

/-- The first second of a day. -/
def midnight (year month day : Nat) (since : 1970 ≤ year) (firstMonth : 1 ≤ month)
    (lastMonth : month ≤ 12) (firstDay : 1 ≤ day)
    (lastDay : day ≤ monthDays year month) : Instant where
  year := year
  month := month
  day := day
  hour := 0
  minute := 0
  second := 0
  since := since
  firstMonth := firstMonth
  lastMonth := lastMonth
  firstDay := firstDay
  lastDay := lastDay
  lastHour := by decide
  lastMinute := by decide
  lastSecond := by decide

/-- The first second of a year. -/
def newYear (year : Nat) (since : 1970 ≤ year) : Instant :=
  midnight year 1 1 since (Nat.le_refl 1) (by decide) (Nat.le_refl 1) (monthDays_pos _ _)

/-- The first second of the day after. -/
def tomorrow (t : Instant) : Instant :=
  if sameMonth : t.day + 1 ≤ monthDays t.year t.month then
    midnight t.year t.month (t.day + 1) t.since t.firstMonth t.lastMonth
      (Nat.le_add_left 1 t.day) sameMonth
  else if sameYear : t.month + 1 ≤ 12 then
    midnight t.year (t.month + 1) 1 t.since (Nat.le_add_left 1 t.month) sameYear
      (Nat.le_refl 1) (monthDays_pos _ _)
  else
    newYear (t.year + 1) (Nat.le_succ_of_le t.since)

/-- The second after. -/
def next (t : Instant) : Instant :=
  if sameMinute : t.second + 1 < 60 then
    { t with second := t.second + 1, lastSecond := sameMinute }
  else if sameHour : t.minute + 1 < 60 then
    { t with
      minute := t.minute + 1
      second := 0
      lastMinute := sameHour
      lastSecond := by decide }
  else if sameDay : t.hour + 1 < 24 then
    { t with
      hour := t.hour + 1
      minute := 0
      second := 0
      lastHour := sameDay
      lastMinute := by decide
      lastSecond := by decide }
  else t.tomorrow

end Instant

/-! ## Days -/

theorem daysToMonth_twelve (year : Nat) : daysToMonth year 12 = yearDays year := by
  cases leap : isLeapYear year with
  | true => simp [daysToMonth, monthDays, commonDays, yearDays, leap]
  | false => simp [daysToMonth, monthDays, commonDays, yearDays, leap]

/-- The leap days of the months before. -/
theorem daysToMonth_eq (year : Nat) {month : Nat} (first : 1 ≤ month) (last : month ≤ 12) :
    daysToMonth year (month - 1) =
      daysToMonth 1970 (month - 1) + if 2 < month ∧ isLeapYear year then 1 else 0 := by
  have common : isLeapYear 1970 = false := by decide
  cases leap : isLeapYear year with
  | true =>
      interval_cases month <;>
        simp [daysToMonth, monthDays, commonDays, leap, common]
  | false =>
      interval_cases month <;> simp [daysToMonth, monthDays, commonDays, leap, common]

theorem daysToYear_mono {years later : Nat} (before : years ≤ later) :
    daysToYear years ≤ daysToYear later := by
  induction before with
  | refl => exact Nat.le_refl _
  | step _ inductionHypothesis =>
      rw [daysToYear]
      omega

/-- Until 2099 every fourth year has a leap day. -/
theorem isLeapYear_iff {years : Nat} (near : years < 130) :
    isLeapYear (1970 + years) = true ↔ years % 4 = 2 := by
  rw [isLeapYear, decide_eq_true_eq]
  omega

theorem daysToYear_eq {years : Nat} (near : years ≤ 130) :
    daysToYear years = years * 365 + (years + 1) / 4 := by
  induction years with
  | zero => rfl
  | succ years inductionHypothesis =>
      have leap := @isLeapYear_iff years (by omega)
      rw [daysToYear, inductionHypothesis (by omega), yearDays]
      by_cases day : years % 4 = 2
      · rw [if_pos (leap.mpr day)]
        omega
      · rw [if_neg (fun isLeap => day (leap.mp isLeap))]
        omega

namespace Instant

variable (t : Instant)

theorem days_tomorrow : t.tomorrow.days = t.days + 1 := by
  have firstMonth := t.firstMonth
  have firstDay := t.firstDay
  have lastDay := t.lastDay
  unfold tomorrow
  split
  · change daysToYear (t.year - 1970) + daysToMonth t.year (t.month - 1) + (t.day + 1 - 1) = _
    rw [days]
    omega
  · have whole : t.day = monthDays t.year t.month := by omega
    have month : t.month = t.month - 1 + 1 := by omega
    have passed : daysToMonth t.year t.month =
        daysToMonth t.year (t.month - 1) + monthDays t.year t.month := by
      conv_lhs => rw [month]
      rw [daysToMonth, ← month]
    split
    · change daysToYear (t.year - 1970) + daysToMonth t.year t.month + 0 = _
      rw [days, passed]
      omega
    · have since := t.since
      have lastMonth := t.lastMonth
      have december : t.month = 12 := by omega
      have years : t.year + 1 - 1970 = t.year - 1970 + 1 := by omega
      have year : 1970 + (t.year - 1970) = t.year := by omega
      rw [december, daysToMonth_twelve] at passed
      change daysToYear (t.year + 1 - 1970) + 0 + 0 = _
      rw [days, years, daysToYear, year, december, passed]
      rw [december] at whole
      omega

theorem midnight_tomorrow :
    t.tomorrow.hour = 0 ∧ t.tomorrow.minute = 0 ∧ t.tomorrow.second = 0 := by
  unfold tomorrow
  split
  · exact ⟨rfl, rfl, rfl⟩
  · split
    · exact ⟨rfl, rfl, rfl⟩
    · exact ⟨rfl, rfl, rfl⟩

/-- Consecutive seconds have consecutive numbers. -/
theorem seconds_next : t.next.seconds = t.seconds + 1 := by
  have lastSecond := t.lastSecond
  have lastMinute := t.lastMinute
  have lastHour := t.lastHour
  unfold next
  split
  · change ((t.days * 24 + t.hour) * 60 + t.minute) * 60 + (t.second + 1) = _
    rw [seconds]
    omega
  · split
    · change ((t.days * 24 + t.hour) * 60 + (t.minute + 1)) * 60 + 0 = _
      rw [seconds]
      omega
    · split
      · change ((t.days * 24 + (t.hour + 1)) * 60 + 0) * 60 + 0 = _
        rw [seconds]
        omega
      · rcases t.midnight_tomorrow with ⟨hour, minute, second⟩
        rw [seconds, seconds, days_tomorrow, hour, minute, second]
        omega

end Instant

end CS162.Foundation
