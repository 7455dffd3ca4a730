import Edm.Calendar

/-!
This module contains the laws of dates and times: every date is the one after the date before it, a
shift is taken back by the opposite shift, and a time of day is made of its parts.
-/

namespace Edm

namespace Date

/-- The month of the date exists and has the day of the date. -/
structure InMonth (d : Date) : Prop where
  one_le_month : 1 ≤ d.month
  month_le : d.month ≤ 12
  one_le_day : 1 ≤ d.day
  day_le : d.day ≤ daysInMonth d.year d.month

structure IsValid (d : Date) : Prop extends d.InMonth where
  firstYear_le : firstYear ≤ d.year
  le_lastYear : d.year ≤ lastYear

theorem ofParts?_eq_some_iff {year : Int} {month day : Nat} {d : Date}
    : ofParts? year month day = some d ↔ d.IsValid ∧ d = ⟨year, month, day⟩ := by
  unfold ofParts?
  constructor
  . intro h
    split at h
    . next hparts =>
      obtain ⟨hfirst, hlast, hmonth, hmonth', hday, hday'⟩ := hparts
      cases h
      exact ⟨⟨⟨hmonth, hmonth', hday, hday'⟩, hfirst, hlast⟩, rfl⟩
    . cases h
  . rintro ⟨h, rfl⟩
    rw [if_pos ⟨h.firstYear_le, h.le_lastYear, h.one_le_month, h.month_le, h.one_le_day, h.day_le⟩]

theorem daysInMonth_bounds (year : Int) (month : Nat)
    : 28 ≤ daysInMonth year month ∧ daysInMonth year month ≤ 31 := by
  unfold daysInMonth
  split
  . split
    . decide
    . decide
  . decide
  . decide
  . decide
  . decide
  . decide

theorem inMonth_first (year : Int) {month : Nat} (hpos : 1 ≤ month) (hle : month ≤ 12)
    : (Date.mk year month 1).InMonth := by
  have := (daysInMonth_bounds year month).1
  exact ⟨hpos, hle, Nat.le_refl 1, by dsimp only; omega⟩

theorem inMonth_last (year : Int) {month : Nat} (hpos : 1 ≤ month) (hle : month ≤ 12)
    : (Date.mk year month (daysInMonth year month)).InMonth := by
  have := (daysInMonth_bounds year month).1
  exact ⟨hpos, hle, by dsimp only; omega, Nat.le_refl _⟩

theorem daysInMonth_december (year : Int) : daysInMonth year 12 = 31 := by rfl

theorem inMonth_next {d : Date} (h : d.InMonth) : d.next.InMonth := by
  unfold next
  split
  . next hday => exact ⟨h.one_le_month, h.month_le, Nat.le_add_left 1 d.day, hday⟩
  . split
    . next hmonth => exact inMonth_first d.year (Nat.le_add_left 1 d.month) hmonth
    . exact inMonth_first (d.year + 1) (Nat.le_refl 1) (by decide)

theorem inMonth_previous {d : Date} (h : d.InMonth) : d.previous.InMonth := by
  unfold previous
  split
  . next hday =>
    exact ⟨h.one_le_month, h.month_le, Nat.le_sub_of_add_le hday,
      Nat.le_trans (Nat.sub_le d.day 1) h.day_le⟩
  . split
    . next hmonth =>
      exact inMonth_last d.year (Nat.le_sub_of_add_le hmonth)
        (Nat.le_trans (Nat.sub_le d.month 1) h.month_le)
    . exact daysInMonth_december (d.year - 1) ▸ inMonth_last _ (by decide) (Nat.le_refl 12)

theorem previous_next {d : Date} (h : d.InMonth) : d.next.previous = d := by
  obtain ⟨hmonth, hmonth', hday, hday'⟩ := h
  obtain ⟨year, month, day⟩ := d
  dsimp only at *
  unfold next
  dsimp only
  split
  . unfold previous
    dsimp only
    rw [if_pos (by omega), Nat.add_sub_cancel]
  . split
    . unfold previous
      dsimp only
      rw [if_neg (by decide), if_pos (by omega), Nat.add_sub_cancel, Date.mk.injEq]
      exact ⟨rfl, rfl, by omega⟩
    . obtain rfl : month = 12 := by omega
      rw [daysInMonth_december] at *
      unfold previous
      dsimp only
      rw [if_neg (by decide), if_neg (by decide), Int.add_sub_cancel, Date.mk.injEq]
      exact ⟨rfl, rfl, by omega⟩

theorem next_previous {d : Date} (h : d.InMonth) : d.previous.next = d := by
  obtain ⟨hmonth, hmonth', hday, hday'⟩ := h
  obtain ⟨year, month, day⟩ := d
  dsimp only at *
  unfold previous
  dsimp only
  split
  . unfold next
    dsimp only
    rw [if_pos (by omega), Nat.sub_add_cancel hday]
  . obtain rfl : day = 1 := by omega
    split
    . unfold next
      dsimp only
      rw [if_neg (Nat.lt_irrefl _), if_pos (by omega), Nat.sub_add_cancel hmonth]
    . obtain rfl : month = 1 := by omega
      unfold next
      dsimp only
      rw [daysInMonth_december, if_neg (by decide), if_neg (by decide), Int.sub_add_cancel]

theorem year_next (d : Date) : d.year ≤ d.next.year ∧ d.next.year ≤ d.year + 1 := by
  unfold next
  split
  . dsimp only
    omega
  . split
    . dsimp only
      omega
    . dsimp only
      omega

theorem year_previous (d : Date) : d.year - 1 ≤ d.previous.year ∧ d.previous.year ≤ d.year := by
  unfold previous
  split
  . dsimp only
    omega
  . split
    . dsimp only
      omega
    . dsimp only
      omega

end Date

namespace TimeOfDay

/-- A leap second follows second 59 of a minute, and lasts no longer than any other. -/
structure IsValid (t : TimeOfDay) : Prop where
  seconds_lt : t.seconds < secondsPerDay
  nanos_lt : t.nanos < 2 * nanosPerSecond
  second_of_leap : nanosPerSecond ≤ t.nanos → t.second = 59

theorem isValid_ofParts {hour minute second nanos : Nat} (hhour : hour ≤ 23)
    (hminute : minute ≤ 59) (hsecond : second ≤ 60) (hnanos : nanos < nanosPerSecond)
    : (ofParts hour minute second nanos).IsValid := by
  unfold nanosPerSecond at hnanos
  unfold ofParts
  split
  . refine ⟨?_, ?_, fun _ => ?_⟩
    . unfold secondsPerDay
      dsimp
      omega
    . unfold nanosPerSecond
      dsimp
      omega
    . unfold TimeOfDay.second
      dsimp
      omega
  . refine ⟨?_, ?_, fun h => ?_⟩
    . unfold secondsPerDay
      dsimp
      omega
    . unfold nanosPerSecond
      dsimp
      omega
    . unfold nanosPerSecond at h
      dsimp at h
      omega

/-- The second as it is shown: 60 during a leap second. -/
def shownSecond (t : TimeOfDay) : Nat := t.second + t.nanos / nanosPerSecond

theorem shownSecond_le {t : TimeOfDay} (h : t.IsValid) : t.shownSecond ≤ 60 := by
  have hnanos := h.nanos_lt
  have hleap := h.second_of_leap
  unfold shownSecond
  unfold second nanosPerSecond at *
  omega

theorem ofParts_parts {t : TimeOfDay} (h : t.IsValid)
    : ofParts t.hour t.minute t.shownSecond (t.nanos % nanosPerSecond) = t := by
  have hnanos := h.nanos_lt
  have hleap := h.second_of_leap
  obtain ⟨seconds, nanos⟩ := t
  unfold ofParts hour minute shownSecond
  unfold second nanosPerSecond at *
  dsimp at *
  split
  . rw [TimeOfDay.mk.injEq]
    omega
  . rw [TimeOfDay.mk.injEq]
    omega

theorem hour_le {t : TimeOfDay} (h : t.IsValid) : t.hour ≤ 23 := by
  have := h.seconds_lt
  unfold secondsPerDay at this
  unfold hour
  omega

theorem minute_le (t : TimeOfDay) : t.minute ≤ 59 := by
  unfold minute
  omega

end TimeOfDay

namespace DateTime

structure IsValid (t : DateTime) : Prop where
  date : t.date.IsValid
  time : t.time.IsValid

variable {t : DateTime} {seconds : Int}

theorem shift_shift (hdate : t.date.InMonth) (htime : t.time.seconds < TimeOfDay.secondsPerDay)
    (hseconds : seconds.natAbs < TimeOfDay.secondsPerDay)
    : (t.shift seconds).shift (-seconds) = t := by
  obtain ⟨date, n, nanos⟩ := t
  unfold TimeOfDay.secondsPerDay at htime hseconds
  dsimp only at hdate htime
  unfold shift TimeOfDay.secondsPerDay
  dsimp only
  -- The day before is left again to the day after it, and the other way round.
  split
  . dsimp only
    rw [if_neg (by omega), if_neg (by omega), Date.next_previous hdate, DateTime.mk.injEq,
      TimeOfDay.mk.injEq]
    exact ⟨rfl, by omega, rfl⟩
  . split
    . dsimp only
      rw [if_neg (by omega), if_pos (by omega), DateTime.mk.injEq, TimeOfDay.mk.injEq]
      exact ⟨rfl, by omega, rfl⟩
    . dsimp only
      rw [if_pos (by omega), Date.previous_next hdate, DateTime.mk.injEq, TimeOfDay.mk.injEq]
      exact ⟨rfl, by omega, rfl⟩

theorem inMonth_shift (hdate : t.date.InMonth) : (t.shift seconds).date.InMonth := by
  unfold shift
  dsimp only
  split
  . exact Date.inMonth_previous hdate
  . split
    . exact hdate
    . exact Date.inMonth_next hdate

theorem year_shift (t : DateTime) (seconds : Int)
    : t.date.year - 1 ≤ (t.shift seconds).date.year
        ∧ (t.shift seconds).date.year ≤ t.date.year + 1 := by
  have hnext := t.date.year_next
  have hprevious := t.date.year_previous
  unfold shift
  dsimp only
  split
  . dsimp only
    omega
  . split
    . dsimp only
      omega
    . dsimp only
      omega

theorem isValid_time_shift (htime : t.time.IsValid)
    (hseconds : seconds.natAbs < TimeOfDay.secondsPerDay) (hminutes : seconds % 60 = 0)
    : (t.shift seconds).time.IsValid := by
  -- Whole minutes leave the second of the minute as it is, on which a leap second depends.
  have hsame : (t.shift seconds).time.nanos = t.time.nanos
      ∧ (t.shift seconds).time.seconds < TimeOfDay.secondsPerDay
      ∧ (t.shift seconds).time.second = t.time.second := by
    have hlt := htime.seconds_lt
    unfold shift TimeOfDay.second
    unfold TimeOfDay.secondsPerDay at *
    dsimp only
    split
    . exact ⟨rfl, by dsimp only; omega, by dsimp only; omega⟩
    . split
      . exact ⟨rfl, by dsimp only; omega, by dsimp only; omega⟩
      . exact ⟨rfl, by dsimp only; omega, by dsimp only; omega⟩
  obtain ⟨hnanos, hlt, hsecond⟩ := hsame
  refine ⟨hlt, ?_, ?_⟩
  . rw [hnanos]
    exact htime.nanos_lt
  . rw [hnanos, hsecond]
    exact htime.second_of_leap

end DateTime

namespace OffsetDateTime

structure IsValid (t : OffsetDateTime) : Prop where
  utc : t.utc.IsValid
  offset_lt : t.offset.natAbs < TimeOfDay.secondsPerDay

theorem ofLocal_atOffset {t : OffsetDateTime} (h : t.IsValid)
    : ofLocal t.atOffset t.offset = t := by
  unfold ofLocal atOffset
  rw [DateTime.shift_shift h.utc.date.toInMonth h.utc.time.seconds_lt h.offset_lt]

theorem atOffset_ofLocal {t : DateTime} {offset : Int} (h : t.IsValid)
    (hoffset : offset.natAbs < TimeOfDay.secondsPerDay) : (ofLocal t offset).atOffset = t := by
  have hneg : (-offset).natAbs < TimeOfDay.secondsPerDay := by rwa [Int.natAbs_neg]
  have hshift := DateTime.shift_shift h.date.toInMonth h.time.seconds_lt hneg
  rwa [Int.neg_neg] at hshift

theorem isValid_ofLocal {t : DateTime} {offset : Int} (h : t.IsValid) (hfirst : 0 ≤ t.date.year)
    (hlast : t.date.year ≤ 9999) (hoffset : offset.natAbs < TimeOfDay.secondsPerDay)
    (hminutes : offset % 60 = 0) : (ofLocal t offset).IsValid := by
  obtain ⟨hlow, hhigh⟩ := t.year_shift (-offset)
  refine ⟨⟨⟨DateTime.inMonth_shift h.date.toInMonth, ?_, ?_⟩, ?_⟩, hoffset⟩
  . unfold Date.firstYear
    change -262143 ≤ (t.shift (-offset)).date.year
    omega
  . unfold Date.lastYear
    change (t.shift (-offset)).date.year ≤ 262142
    omega
  . exact DateTime.isValid_time_shift h.time (by rwa [Int.natAbs_neg]) (by omega)

end OffsetDateTime

end Edm
