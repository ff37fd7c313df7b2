import Mathlib.Tactic.Ring
import CS162.Foundation.Calendar
import CS162.Foundation.Unsigned

/-!
# The real time clock

`devices/rtc.c`.  An `int` has 32 bits and an operation that leaves its range is
undefined, as is an access outside an array; both are `none`.  `time_t` is an
`unsigned long` of 32 bits.
-/

namespace CS162.Devices

open CS162.Foundation

/-- `RTC_REG_SEC` -/
def rtcRegSec : Nat := 0
/-- `RTC_REG_MIN` -/
def rtcRegMin : Nat := 2
/-- `RTC_REG_HOUR` -/
def rtcRegHour : Nat := 4
/-- `RTC_REG_MDAY` -/
def rtcRegMday : Nat := 7
/-- `RTC_REG_MON` -/
def rtcRegMon : Nat := 8
/-- `RTC_REG_YEAR` -/
def rtcRegYear : Nat := 9

/-- `bcd_to_bin`. -/
def bcdToBin (x : UInt8) : Int := (x &&& 0x0f).toNat + (x >>> 4).toNat * 10

/-- What each call of `cmos_read` returns, one after another, for each index of a
register. -/
abbrev Cmos := Nat → Nat → UInt8

/-- The time components that `rtc_get_time` reads. -/
structure TimeComponents where
  sec : Int
  min : Int
  hour : Int
  mday : Int
  mon : Int
  year : Int

/-- The loop of `rtc_get_time` that reads until the seconds are stable, after a
number of calls of `cmos_read`. -/
def readComponents (cmos : Cmos) : Nat → Nat → Option TimeComponents
  | 0, _ => none
  | fuel + 1, calls =>
      let components : TimeComponents :=
        { sec := bcdToBin (cmos calls rtcRegSec)
          min := bcdToBin (cmos (calls + 1) rtcRegMin)
          hour := bcdToBin (cmos (calls + 2) rtcRegHour)
          mday := bcdToBin (cmos (calls + 3) rtcRegMday)
          mon := bcdToBin (cmos (calls + 4) rtcRegMon)
          year := bcdToBin (cmos (calls + 5) rtcRegYear) }
      if components.sec ≠ bcdToBin (cmos (calls + 6) rtcRegSec) then
        readComponents cmos fuel (calls + 7)
      else some components

/-- `days_per_month` -/
def daysPerMonth : List Int := [31, 28, 31, 30, 31, 30, 31, 31, 30, 31, 30, 31]

/-- `time += value`, with the value of an expression of type `int`. -/
def addTime (time : Nat) (value : Int) : Option Nat :=
  if -2147483648 ≤ value ∧ value < 2147483648 then some (wrap (time + toUnsigned value))
  else none

/-- The loop of `rtc_get_time` over the months. -/
def addMonths (mon : Int) (time : Nat) : Option Nat :=
  (List.range mon.toNat).foldlM (fun time i =>
    (daysPerMonth[i]?).bind fun days => addTime time (days * 24 * 60 * 60)) time

/-- The day that is added after February when the year is divisible by 4. -/
def addLeapDay (mon year : Int) (time : Nat) : Option Nat :=
  if mon > 2 ∧ year.tmod 4 = 0 then addTime time (24 * 60 * 60) else some time

/-- The part of `rtc_get_time` that breaks down all components into seconds. -/
def componentsTime (c : TimeComponents) : Option Nat := do
  let year := if c.year < 70 then c.year + 100 else c.year
  let year := year - 70
  let time ← addTime 0 ((year * 365 + (year - 1).tdiv 4) * 24 * 60 * 60)
  let time ← addMonths c.mon time
  let time ← addLeapDay c.mon year time
  let time ← addTime time ((c.mday - 1) * 24 * 60 * 60)
  let time ← addTime time (c.hour * 60 * 60)
  let time ← addTime time (c.min * 60)
  addTime time c.sec

/-- `rtc_get_time`. -/
def rtcGetTime (fuel : Nat) (cmos : Cmos) : Option Nat :=
  (readComponents cmos fuel 0).bind componentsTime

/-! ## The registers of a clock that is right -/

/-- Two digits in BCD. -/
def toBcd (value : Nat) : UInt8 := UInt8.ofNat (value / 10 * 16 + value % 10)

/-- The registers that present an instant. -/
def presents (t : Instant) : Cmos := fun _ index =>
  if index = rtcRegSec then toBcd t.second
  else if index = rtcRegMin then toBcd t.minute
  else if index = rtcRegHour then toBcd t.hour
  else if index = rtcRegMday then toBcd t.day
  else if index = rtcRegMon then toBcd t.month
  else if index = rtcRegYear then toBcd (t.year % 100)
  else 0

theorem bcdToBin_toBcd {value : Nat} (digits : value < 100) : bcdToBin (toBcd value) = value := by
  have all : ∀ value < 100, bcdToBin (toBcd value) = value := by decide
  exact all value digits

theorem addTime_eq {time amount : Nat} {value : Int} (equal : value = amount)
    (small : amount < 2147483648) (fits : time + amount < unsignedModulus) :
    addTime time value = some (time + amount) := by
  have unsigned : toUnsigned value = amount := by
    rw [toUnsigned, equal, Int.emod_eq_of_lt (Int.natCast_nonneg amount) (by omega)]
    rfl
  rw [addTime, if_pos (by omega), unsigned, wrap_of_lt fits]

theorem daysPerMonth_get {i : Nat} (inside : i < 12) :
    daysPerMonth[i]? = some ((monthDays 1970 (i + 1) : Nat) : Int) := by
  have all : ∀ i < 12, daysPerMonth[i]? = some ((monthDays 1970 (i + 1) : Nat) : Int) := by
    decide
  exact all i inside

theorem daysToMonth_le {months : Nat} (inside : months ≤ 12) : daysToMonth 1970 months ≤ 365 := by
  have all : ∀ months ≤ 12, daysToMonth 1970 months ≤ 365 := by decide
  exact all months inside

/-- The loop adds the days of all months up to the given one, and of this month too. -/
theorem addMonths_eq {month time : Nat} (last : month ≤ 12)
    (fits : time + 366 * 86400 < unsignedModulus) :
    addMonths month time = some (time + daysToMonth 1970 month * 86400) := by
  induction month with
  | zero => rfl
  | succ month inductionHypothesis =>
      have before := inductionHypothesis (by omega)
      have year := daysToMonth_le last
      rw [addMonths, Int.toNat_natCast] at before ⊢
      rw [List.range_succ, List.foldlM_append, before, daysToMonth]
      rw [daysToMonth] at year
      rw [Option.bind_eq_bind, Option.bind_some, List.foldlM_cons,
        daysPerMonth_get (by omega), Option.bind_some]
      have equal : ((monthDays 1970 (month + 1) : Nat) : Int) * 24 * 60 * 60 =
          ((monthDays 1970 (month + 1) * 86400 : Nat) : Int) := by
        omega
      rw [addTime_eq equal (by omega) (by omega)]
      rw [Nat.add_mul, ← Nat.add_assoc]
      rfl

/-! ## The time that is returned -/

/-- The days by which `rtc_get_time` is late: the days of the current month, and what
is wrong about the leap days of this year and of the years before. -/
def lateDays (t : Instant) : Nat :=
  commonDays t.month + (t.year - 1970 - 1) / 4 +
      (if 2 < t.month ∧ (t.year - 1970) % 4 = 0 then 1 else 0) -
    ((t.year - 1970 + 1) / 4 + if 2 < t.month ∧ (t.year - 1970) % 4 = 2 then 1 else 0)

theorem lateDays_bounds (t : Instant) : 27 ≤ lateDays t ∧ lateDays t ≤ 32 := by
  have firstMonth := t.firstMonth
  have some_days : 28 ≤ commonDays t.month ∧ commonDays t.month ≤ 31 ∧
      (2 < t.month → 30 ≤ commonDays t.month) := by
    unfold commonDays
    split_ifs <;> omega
  unfold lateDays
  split_ifs <;> omega

/-- The latest year before the time does not fit 31 bits. -/
theorem years_le {t : Instant} (early : t.seconds ≤ 2147483647) : t.year - 1970 ≤ 68 := by
  by_contra late
  have enough : daysToYear 69 ≤ daysToYear (t.year - 1970) := daysToYear_mono (by omega)
  rw [daysToYear_eq (by decide)] at enough
  rw [Instant.seconds, Instant.days] at early
  omega

theorem day_le (t : Instant) : t.day ≤ 31 := by
  have last := t.lastDay
  unfold monthDays commonDays at last
  split_ifs at last <;> omega

theorem readComponents_presents (t : Instant) (fuel : Nat) :
    readComponents (presents t) (fuel + 1) 0 = some
      { sec := t.second
        min := t.minute
        hour := t.hour
        mday := t.day
        mon := t.month
        year := ((t.year % 100 : Nat) : Int) } := by
  have lastDay := day_le t
  have lastMonth := t.lastMonth
  have lastHour := t.lastHour
  have lastMinute := t.lastMinute
  have lastSecond := t.lastSecond
  have second : bcdToBin (toBcd t.second) = t.second := bcdToBin_toBcd (by omega)
  have minute : bcdToBin (toBcd t.minute) = t.minute := bcdToBin_toBcd (by omega)
  have hour : bcdToBin (toBcd t.hour) = t.hour := bcdToBin_toBcd (by omega)
  have day : bcdToBin (toBcd t.day) = t.day := bcdToBin_toBcd (by omega)
  have month : bcdToBin (toBcd t.month) = t.month := bcdToBin_toBcd (by omega)
  have year : bcdToBin (toBcd (t.year % 100)) = ((t.year % 100 : Nat) : Int) :=
    bcdToBin_toBcd (Nat.mod_lt _ (by decide))
  simp [readComponents, presents, rtcRegSec, rtcRegMin, rtcRegHour, rtcRegMday,
    rtcRegMon, rtcRegYear, second, minute, hour, day, month, year]

/-- The division rounds to zero, so it gives no leap day before 1970. -/
theorem tdiv_years (years : Nat) :
    ((years : Int) - 1).tdiv 4 = (((years - 1) / 4 : Nat) : Int) := by
  cases years with
  | zero => rfl
  | succ years =>
      have before : ((years + 1 : Nat) : Int) - 1 = (years : Int) := by omega
      rw [before, Nat.add_sub_cancel]
      exact (Int.ofNat_tdiv years 4).symm

theorem tmod_years (years : Nat) : (years : Int).tmod 4 = 0 ↔ years % 4 = 0 := by
  have same : (years : Int).tmod 4 = ((years % 4 : Nat) : Int) := (Int.ofNat_tmod years 4).symm
  rw [same]
  omega

/-- The days that the code counts, and the days that have passed. -/
theorem days_late {t : Instant} (early : t.seconds ≤ 2147483647) :
    (t.year - 1970) * 365 + (t.year - 1970 - 1) / 4 + daysToMonth 1970 t.month +
        (if 2 < t.month ∧ (t.year - 1970) % 4 = 0 then 1 else 0) + (t.day - 1) =
      t.days + lateDays t := by
  have years := years_le early
  have since := t.since
  have firstMonth := t.firstMonth
  have leap : isLeapYear t.year = true ↔ (t.year - 1970) % 4 = 2 := by
    have near := @isLeapYear_iff (t.year - 1970) (by omega)
    rwa [Nat.add_sub_cancel' since] at near
  have month : t.month = t.month - 1 + 1 := by omega
  have current : daysToMonth 1970 t.month =
      daysToMonth 1970 (t.month - 1) + commonDays t.month := by
    have common : isLeapYear 1970 = false := by decide
    conv_lhs => rw [month]
    rw [daysToMonth, ← month, monthDays, common]
    simp
  have late := lateDays_bounds t
  rw [Instant.days, daysToYear_eq (by omega),
    daysToMonth_eq t.year t.firstMonth t.lastMonth, current]
  unfold lateDays at late ⊢
  simp only [leap]
  omega

/-- What is added by a turn of the loop or by an assignment leaves the range of no
type. -/
theorem addTime_scaled {time units factor : Nat} {value : Int}
    (equal : value = ((units * factor : Nat) : Int)) (few : units * factor ≤ 2678400)
    (room : time ≤ 2500000000) : addTime time value = some (time + units * factor) := by
  have modulus : unsignedModulus = 4294967296 := rfl
  exact addTime_eq equal (by omega) (by omega)

theorem addLeapDay_eq {years month time : Nat} (room : time ≤ 2500000000) :
    addLeapDay month years time =
      some (time + (if 2 < month ∧ years % 4 = 0 then 1 else 0) * 86400) := by
  have leap : ((month : Int) > 2 ∧ (years : Int).tmod 4 = 0) ↔ (2 < month ∧ years % 4 = 0) := by
    rw [tmod_years]
    omega
  rw [addLeapDay]
  by_cases day : 2 < month ∧ years % 4 = 0
  · rw [if_pos (leap.mpr day), if_pos day]
    exact addTime_scaled rfl (by decide) room
  · rw [if_neg (fun isLeap => day (leap.mp isLeap)), if_neg day]
    rfl

/-- What the components are added up to. -/
theorem componentsTime_eq {c : TimeComponents} {years month day hour minute second : Nat}
    (near : years ≤ 68) (lastMonth : month ≤ 12) (firstDay : 1 ≤ day)
    (lastDay : day ≤ 31) (lastHour : hour < 24) (lastMinute : minute < 60)
    (lastSecond : second < 60) (year : (if c.year < 70 then c.year + 100 else c.year) - 70 = years)
    (mon : c.mon = month) (mday : c.mday = day) (hours : c.hour = hour)
    (minutes : c.min = minute) (seconds : c.sec = second) :
    componentsTime c = some
      ((years * 365 + (years - 1) / 4 + daysToMonth 1970 month +
          (if 2 < month ∧ years % 4 = 0 then 1 else 0) + (day - 1)) * 86400 +
        hour * 3600 + minute * 60 + second) := by
  have modulus : unsignedModulus = 4294967296 := rfl
  have lastDays := daysToMonth_le lastMonth
  have first : addTime 0 (((years : Int) * 365 + ((years : Int) - 1).tdiv 4) * 24 * 60 *
      60) = some (0 + (years * 365 + (years - 1) / 4) * 86400) := by
    rw [tdiv_years]
    exact addTime_eq (by omega) (by omega) (by omega)
  have amount : (if 2 < month ∧ years % 4 = 0 then 1 else 0) ≤ 1 := by
    split <;> omega
  have dayValue : ((day : Int) - 1) * 24 * 60 * 60 = (((day - 1) * 86400 : Nat) : Int) := by
    omega
  have hourValue : (hour : Int) * 60 * 60 = ((hour * 3600 : Nat) : Int) := by omega
  have minuteValue : (minute : Int) * 60 = ((minute * 60 : Nat) : Int) := by omega
  have secondValue : (second : Int) = ((second * 1 : Nat) : Int) := by omega
  rw [componentsTime, year, mon, mday, hours, minutes, seconds, first,
    Option.bind_eq_bind, Option.bind_some, addMonths_eq lastMonth (by omega), Option.bind_some, addLeapDay_eq (by omega),
    Option.bind_some, addTime_scaled dayValue (by omega) (by omega), Option.bind_some,
    addTime_scaled hourValue (by omega) (by omega), Option.bind_some,
    addTime_scaled minuteValue (by omega) (by omega), Option.bind_some,
    addTime_scaled secondValue (by omega) (by omega)]
  apply congrArg some
  ring

/-- For every instant until 2038 the result is late by `lateDays`. -/
theorem rtcGetTime_late {t : Instant} (early : t.seconds ≤ 2147483647) (fuel : Nat) :
    rtcGetTime (fuel + 1) (presents t) = some (t.seconds + lateDays t * 86400) := by
  have years := years_le early
  have since := t.since
  have days := days_late early
  have seconds : t.seconds = ((t.days * 24 + t.hour) * 60 + t.minute) * 60 + t.second := rfl
  have year : (if ((t.year % 100 : Nat) : Int) < 70 then
      ((t.year % 100 : Nat) : Int) + 100 else ((t.year % 100 : Nat) : Int)) - 70 =
      ((t.year - 1970 : Nat) : Int) := by
    split <;> omega
  rw [rtcGetTime, readComponents_presents, Option.bind_some,
    componentsTime_eq years t.lastMonth t.firstDay (day_le t) t.lastHour t.lastMinute
      t.lastSecond year rfl rfl rfl rfl rfl, days, seconds]
  apply congrArg some
  ring

/-- Consecutive seconds map to consecutive values. -/
def Consecutive (fuel : Nat) (t : Instant) : Prop :=
  ∃ time, rtcGetTime fuel (presents t) = some time ∧
    rtcGetTime fuel (presents t.next) = some (time + 1)

/-- No instant until 2038 is converted to the seconds that have passed, as the loop
over the months adds the days of the current month: the result is four weeks late or
more.  The values of consecutive seconds are consecutive exactly where the error stays
the same. -/
theorem rtc_get_time_never (t : Instant) (early : t.seconds ≤ 2147483647) (fuel : Nat) :
    rtcGetTime (fuel + 1) (presents t) ≠ some t.seconds ∧
      (∃ days, 27 ≤ days ∧ days ≤ 32 ∧
        rtcGetTime (fuel + 1) (presents t) = some (t.seconds + days * 86400)) ∧
      (t.seconds < 2147483647 →
        (Consecutive (fuel + 1) t ↔ lateDays t.next = lateDays t)) := by
  have late := lateDays_bounds t
  have time := rtcGetTime_late early fuel
  refine ⟨?_, ⟨lateDays t, late.1, late.2, time⟩, ?_⟩
  · intro right
    rw [time] at right
    have same := Option.some.inj right
    omega
  · intro room
    have next := t.seconds_next
    have nextTime := @rtcGetTime_late t.next (by omega) fuel
    rw [Consecutive, time, nextTime, next]
    constructor
    · rintro ⟨value, here, there⟩
      have first := Option.some.inj here
      have second := Option.some.inj there
      omega
    · intro same
      refine ⟨_, rfl, ?_⟩
      rw [same]
      apply congrArg some
      omega

/-- The beginning of 1970. -/
def epoch : Instant := Instant.newYear 1970 (Nat.le_refl 1970)

theorem epoch_seconds : epoch.seconds = 0 := by decide

theorem rtc_get_time_never_epoch : rtcGetTime 1 (presents epoch) ≠ some epoch.seconds :=
  (rtc_get_time_never epoch (by rw [epoch_seconds]; decide) 0).1

/-- The clock shows the beginning of 1970, and 31 days are returned. -/
theorem rtc_get_time_epoch : rtcGetTime 1 (presents epoch) = some 2678400 ∧ epoch.seconds = 0 := by
  refine ⟨?_, epoch_seconds⟩
  have early : epoch.seconds ≤ 2147483647 := by
    rw [epoch_seconds]
    decide
  rw [rtcGetTime_late early, epoch_seconds]
  decide

end CS162.Devices
