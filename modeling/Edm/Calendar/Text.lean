import Edm.Calendar

/-!
This module contains the text of dates and times.
-/

namespace Edm

namespace Calendar

def padded (width n : Nat) : String :=
  let digits := Nat.toDigits 10 n
  .ofList (.replicate (width - digits.length) '0' ++ digits)

end Calendar

open Calendar (padded)

/-- Years of four digits have no sign. -/
def Date.toText (d : Date) : String :=
  let year :=
    if 0 ≤ d.year ∧ d.year ≤ 9999 then padded 4 d.year.natAbs
    else (if d.year < 0 then "-" else "+") ++ padded 4 d.year.natAbs
  year ++ "-" ++ padded 2 d.month ++ "-" ++ padded 2 d.day

def TimeOfDay.toText (t : TimeOfDay) : String :=
  let nanos := t.nanos % nanosPerSecond
  let second := t.second + t.nanos / nanosPerSecond
  let fraction :=
    if nanos = 0 then ""
    else if nanos % 1000000 = 0 then "." ++ padded 3 (nanos / 1000000)
    else if nanos % 1000 = 0 then "." ++ padded 6 (nanos / 1000)
    else "." ++ padded 9 nanos
  padded 2 t.hour ++ ":" ++ padded 2 t.minute ++ ":" ++ padded 2 second ++ fraction

def DateTime.toText (t : DateTime) : String := t.date.toText ++ "T" ++ t.time.toText

namespace OffsetDateTime

/-- The offset in hours and minutes, with a sign; seconds are rounded to the nearest minute. -/
def offsetText (t : OffsetDateTime) : String :=
  let minutes := (t.offset.natAbs + 30) / 60
  (if t.offset < 0 then "-" else "+") ++ padded 2 (minutes / 60) ++ ":" ++ padded 2 (minutes % 60)

def toText (t : OffsetDateTime) : String := t.atOffset.toText ++ t.offsetText

def toZuluText (t : OffsetDateTime) : String :=
  t.atOffset.toText ++ if t.offset = 0 then "Z" else t.offsetText

end OffsetDateTime

end Edm
