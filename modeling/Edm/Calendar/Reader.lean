import Edm.Calendar
import Edm.Power
import Edm.Text.Blank
import Edm.Text.Size

/-!
This module contains the reading of dates and times from text, and the ways in which it fails.
-/

namespace Edm.Calendar

inductive Fault where
  | tooShort
  | invalid
  | outOfRange
  | trailing
deriving DecidableEq, Repr

def Fault.message : Fault → String
  | .tooShort => "premature end of input"
  | .invalid => "input contains invalid characters"
  | .outOfRange => "input is out of range"
  | .trailing => "trailing input"

abbrev Reader := StateT (List Char) (Except Fault)

namespace Reader

/-- Read from `least` to `most` decimal digits; the text must have at least `least` bytes. -/
def digits (least most : Nat) : Reader Nat := fun cs =>
  let ds := (cs.take most).takeWhile Char.isDigit
  if Text.utf8Size cs < least then .error .tooShort
  else if ds.length < least then .error .invalid
  else
    let n := ds.foldl (fun n c => n * 10 + (c.toNat - '0'.toNat)) 0
    if n < 9223372036854775808 then .ok (n, cs.drop ds.length) else .error .outOfRange

def literal (c : Char) : Reader Unit := fun
  | [] => .error .tooShort
  | d :: cs => if d = c then .ok ((), cs) else .error .invalid

def skipBlanks : Reader Unit := fun cs => .ok ((), Text.trimStart cs)

def check (p : Prop) [Decidable p] : Reader Unit :=
  if p then pure () else throw .outOfRange

def bounded (least most lower upper : Nat) : Reader Nat := do
  let n ← digits least most
  check (lower ≤ n ∧ n ≤ upper)
  return n

def field (lower upper : Nat) : Reader Nat := do
  skipBlanks
  bounded 1 2 lower upper

def year : Reader Int := do
  skipBlanks
  let cs ← get
  let y : Int ← match cs with
    | '-' :: cs => do
      set cs
      pure (-(← digits 1 cs.length) : Int)
    | '+' :: cs => do
      set cs
      pure (← digits 1 cs.length : Int)
    | _ => do pure (← digits 1 4 : Int)
  check (-2147483648 ≤ y ∧ y ≤ 2147483647)
  return y

/-- One to nine digits of a fraction of a second in nanoseconds; further digits are skipped. -/
def nanos : Reader Nat := do
  let before ← get
  let n ← digits 1 9
  let after ← get
  set (after.dropWhile Char.isDigit)
  return n * tenPow (9 - (before.length - after.length))

def fraction : Reader Nat := do
  match ← get with
  | '.' :: cs =>
    set cs
    nanos
  | _ => return 0

def done : Reader Unit := fun
  | [] => .ok ((), [])
  | _ => .error .trailing

def date (year : Int) (month day : Nat) : Reader Date :=
  match Date.ofParts? year month day with
  | some d => pure d
  | none => throw .outOfRange

def time : Reader TimeOfDay := do
  let h ← field 0 23
  literal ':'
  let m ← field 0 59
  literal ':'
  let s ← field 0 60
  let f ← fraction
  return .ofParts h m s f

def timeToMinute : Reader TimeOfDay := do
  let h ← field 0 23
  literal ':'
  let m ← field 0 59
  return .ofParts h m 0 0

/-- A date, the letter T and a time; that the date exists is checked at the end of the text. -/
def dateTime (time : Reader TimeOfDay) : Reader DateTime := do
  let y ← year
  literal '-'
  let m ← field 1 12
  literal '-'
  let d ← field 1 31
  literal 'T'
  let t ← time
  done
  return ⟨← date y m d, t⟩

def offset : Reader Int := do
  let sign? : List Char → Except Fault (Int × List Char)
    | '+' :: cs => .ok (1, cs)
    | '-' :: cs => .ok (-1, cs)
    | '−' :: cs => .ok (-1, cs)
    | [] => .error .tooShort
    | _ => .error .invalid
  match ← get with
  | 'Z' :: cs | 'z' :: cs =>
    set cs
    return 0
  | cs =>
    let (sign, cs) ← sign? cs
    set cs
    let h ← digits 2 2
    literal ':'
    let m ← digits 2 2
    check (m ≤ 59)
    check (h ≤ 23)
    return sign * (h * 3600 + m * 60 : Nat)

/-- A date and time in the internet format, with exact numbers of digits and an offset. -/
def offsetDateTime : Reader OffsetDateTime := do
  let y ← digits 4 4
  literal '-'
  let m ← bounded 2 2 1 12
  literal '-'
  let d ← bounded 2 2 1 31
  match ← get with
  | 'T' :: cs | 't' :: cs | ' ' :: cs => set cs
  | [] => throw .tooShort
  | _ => throw .invalid
  let h ← bounded 2 2 0 23
  literal ':'
  let min ← bounded 2 2 0 59
  literal ':'
  let s ← bounded 2 2 0 60
  let f ← fraction
  let offset ← offset
  done
  return .ofLocal ⟨← date y m d, .ofParts h min s f⟩ offset

def run (r : Reader α) (cs : List Char) : Except Fault α :=
  match StateT.run r cs with
  | .ok (a, _) => .ok a
  | .error e => .error e

end Reader

def readDateTime (cs : List Char) : Except Fault DateTime :=
  (Reader.dateTime Reader.time).run cs

def readDateTimeToMinute (cs : List Char) : Except Fault DateTime :=
  (Reader.dateTime Reader.timeToMinute).run cs

def readOffsetDateTime (cs : List Char) : Except Fault OffsetDateTime :=
  Reader.offsetDateTime.run cs

def readTime (cs : List Char) : Except Fault TimeOfDay :=
  Reader.run (do let t ← Reader.time; Reader.done; return t) cs

end Edm.Calendar
