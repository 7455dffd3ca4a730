/-!
This module contains dates of the Gregorian calendar, times of day with nanoseconds, and points in
time without and with an offset from universal time.
-/

namespace Edm

structure Date where
  year : Int
  month : Nat
  day : Nat
deriving DecidableEq, Repr, Inhabited

/--
A time of day. During a leap second the fraction goes on from one thousand million nanoseconds
after second 59.
-/
structure TimeOfDay where
  seconds : Nat
  nanos : Nat
deriving DecidableEq, Repr, Inhabited

structure DateTime where
  date : Date
  time : TimeOfDay
deriving DecidableEq, Repr, Inhabited

/-- A point in time, with the offset in seconds under which it is written. -/
structure OffsetDateTime where
  utc : DateTime
  offset : Int
deriving DecidableEq, Repr, Inhabited

namespace Date

def isLeapYear (year : Int) : Bool :=
  year % 4 == 0 && (year % 100 != 0 || year % 400 == 0)

def daysInMonth (year : Int) (month : Nat) : Nat :=
  match month with
  | 2 => if isLeapYear year then 29 else 28
  | 4 | 6 | 9 | 11 => 30
  | _ => 31

/-- The first and the last year that can be represented. -/
def firstYear : Int := -262143

def lastYear : Int := 262142

def isInRange (d : Date) : Bool := firstYear ≤ d.year && d.year ≤ lastYear

def ofParts? (year : Int) (month day : Nat) : Option Date :=
  if firstYear ≤ year ∧ year ≤ lastYear ∧ 1 ≤ month ∧ month ≤ 12 ∧ 1 ≤ day
      ∧ day ≤ daysInMonth year month then
    some ⟨year, month, day⟩
  else none

def next (d : Date) : Date :=
  if d.day < daysInMonth d.year d.month then { d with day := d.day + 1 }
  else if d.month < 12 then ⟨d.year, d.month + 1, 1⟩
  else ⟨d.year + 1, 1, 1⟩

def previous (d : Date) : Date :=
  if 1 < d.day then { d with day := d.day - 1 }
  else if 1 < d.month then ⟨d.year, d.month - 1, daysInMonth d.year (d.month - 1)⟩
  else ⟨d.year - 1, 12, 31⟩

def order (a b : Date) : Ordering :=
  (compare a.year b.year).then ((compare a.month b.month).then (compare a.day b.day))

example : (Date.mk 2000 2 28).next = ⟨2000, 2, 29⟩ := by decide
example : (Date.mk 1900 3 1).previous = ⟨1900, 2, 28⟩ := by decide

end Date

namespace TimeOfDay

def nanosPerSecond : Nat := 1000000000

def secondsPerDay : Nat := 86400

/-- The time with these parts; second 60 is the leap second after second 59. -/
def ofParts (hour minute second nanos : Nat) : TimeOfDay :=
  if second = 60 then ⟨hour * 3600 + minute * 60 + 59, nanosPerSecond + nanos⟩
  else ⟨hour * 3600 + minute * 60 + second, nanos⟩

def hour (t : TimeOfDay) : Nat := t.seconds / 3600

def minute (t : TimeOfDay) : Nat := t.seconds / 60 % 60

/-- The second of the minute; it is 59 during a leap second too. -/
def second (t : TimeOfDay) : Nat := t.seconds % 60

def order (a b : TimeOfDay) : Ordering :=
  (compare a.seconds b.seconds).then (compare a.nanos b.nanos)

end TimeOfDay

namespace DateTime

def epoch : DateTime := ⟨⟨1970, 1, 1⟩, ⟨0, 0⟩⟩

def order (a b : DateTime) : Ordering :=
  (a.date.order b.date).then (a.time.order b.time)

/-- Shift by a number of seconds of less than a day; fractions stay as they are. -/
def shift (t : DateTime) (seconds : Int) : DateTime :=
  let total := (t.time.seconds : Int) + seconds
  let day := TimeOfDay.secondsPerDay
  if total < 0 then ⟨t.date.previous, ⟨(total + day).toNat, t.time.nanos⟩⟩
  else if total < day then ⟨t.date, ⟨total.toNat, t.time.nanos⟩⟩
  else ⟨t.date.next, ⟨(total - day).toNat, t.time.nanos⟩⟩

end DateTime

namespace OffsetDateTime

def ofLocal (t : DateTime) (offset : Int) : OffsetDateTime := ⟨t.shift (-offset), offset⟩

def atOffset (t : OffsetDateTime) : DateTime := t.utc.shift t.offset

end OffsetDateTime

end Edm
