import Edm.Decimal
import Edm.Ieee.Text

/-!
This module contains the text of decimals: writing with all places of the scale, and reading of
positional and of scientific notation.
-/

namespace Edm.Decimal

open Ieee (decimalDigits digitsValue digitValue)

def toText (d : Decimal) : String :=
  let digits := decimalDigits d.mantissa
  let digits := .replicate (d.scale + 1 - digits.length) '0' ++ digits
  let whole := digits.length - d.scale
  let body := if d.scale = 0 then digits else digits.take whole ++ '.' :: digits.drop whole
  .ofList (if d.negative then '-' :: body else body)

/-- Round up by one unit of the last place, with one place less if the mantissa is full. -/
def roundUp? (negative : Bool) (mantissa scale : Nat) : Option Decimal :=
  if mantissa + 1 < mantissaLimit then ofParts? negative (mantissa + 1) scale
  else if scale = 0 then none
  else ofParts? negative ((mantissa + 1 + 4) / 10) (scale - 1)

def unsigned (negative : Bool) (mantissa : Nat) : Bool := negative && mantissa != 0

/-- Round by the first digit that is not kept, a half upwards. -/
def roundAt? (negative : Bool) (mantissa scale digit : Nat) : Option Decimal :=
  if digit < 5 then ofParts? (unsigned negative mantissa) mantissa scale
  else roundUp? negative mantissa scale

/--
Read the digits after the point. The first digit that does not fit any more rounds the digits before
it and ends the number: whatever follows it is ignored. Behind the last possible place a point
counts as a zero.
-/
def readFraction? (negative : Bool) (mantissa scale : Nat) (seen : Bool) :
    List Char → Option Decimal
  | [] => if seen then ofParts? (unsigned negative mantissa) mantissa scale else none
  | c :: cs =>
    if c.isDigit then
      if scale = maxScale ∨ mantissaLimit ≤ mantissa * 10 + digitValue c then
        roundAt? negative mantissa scale (digitValue c)
      else readFraction? negative (mantissa * 10 + digitValue c) (scale + 1) true cs
    else if c = '.' ∧ scale = maxScale then roundAt? negative mantissa scale 0
    else none

/-- Read the digits before the point; they have to fit. -/
def readWhole? (negative : Bool) (mantissa : Nat) (seen : Bool) : List Char → Option Decimal
  | [] => if seen then ofParts? (unsigned negative mantissa) mantissa 0 else none
  | c :: cs =>
    if c = '.' then readFraction? negative mantissa 0 seen cs
    else if c.isDigit then
      let mantissa := mantissa * 10 + digitValue c
      if mantissa < mantissaLimit then readWhole? negative mantissa true cs else none
    else none

def read? (cs : List Char) : Option Decimal :=
  let (negative, cs) := Ieee.splitSign cs
  readWhole? negative 0 false cs

/-- Move the point of `d` to the left; places behind the last possible one are rounded off. -/
def movePointLeft? (d : Decimal) (n : Nat) : Option Decimal :=
  if maxScale < n then none
  else
    let scale := d.scale + n
    let m := Ieee.divHalfUp d.mantissa (tenPow (scale - maxScale))
    ofParts? d.negative m (min scale maxScale)

/-- Move the point of `d` to the right; the result has no places after the digits ran out. -/
def movePointRight? (d : Decimal) (n : Nat) : Option Decimal :=
  if n ≤ d.scale then ofParts? d.negative d.mantissa (d.scale - n)
  else if maxScale < n then none
  else ofParts? d.negative (d.mantissa * tenPow (n - d.scale)) 0

def readPlaces? (cs : List Char) : Option Nat :=
  let ds := match cs with
    | '+' :: ds => ds
    | ds => ds
  if !ds.isEmpty && ds.all Char.isDigit then
    let n := digitsValue ds
    if n < 4294967296 then some n else none
  else none

def readScientific? (cs : List Char) : Option Decimal := do
  let isMark (c : Char) : Bool := c = 'e' ∨ c = 'E'
  let d ← read? (cs.takeWhile fun c => !isMark c)
  match cs.dropWhile fun c => !isMark c with
  | [] => none
  | _ :: exponent =>
    match exponent with
    | '-' :: ds => movePointLeft? d (← readPlaces? ds)
    | ds => movePointRight? d (← readPlaces? ds)

example : (read? "12.50".toList).map toText = some "12.50" := by decide +kernel
example : (read? "-0.0".toList).map toText = some "0.0" := by decide +kernel
example : (readScientific? "15e-1".toList).map toText = some "1.5" := by decide +kernel

end Edm.Decimal
