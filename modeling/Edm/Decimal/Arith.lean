import Edm.Decimal

/-!
This module contains the checked arithmetic of decimals. Results that need more than 96 bits or more
than 28 places lose as few of their last places as possible, a half going to the even neighbour; the
operations fail when even the integral part does not fit.
-/

namespace Edm.Decimal

open Ieee (divEven)

/-- The decimal with these parts; zero has no sign. -/
def ofMagnitude? (negative : Bool) (mantissa scale : Nat) : Option Decimal :=
  ofParts? (negative && mantissa != 0) mantissa scale

/--
Round the number `mantissa / 10 ^ scale` to a decimal by dropping as few places as possible, but at
least `least` of them.
-/
def fit? (negative : Bool) (mantissa scale least : Nat) : Option Decimal :=
  (List.range' least (scale + 1 - least)).findSome? fun drop =>
    ofMagnitude? negative (divEven mantissa (tenPow drop)) (scale - drop)

/-- The sum of two nonzero decimals, exact at the larger scale before it is rounded. -/
def addAligned? (a b : Decimal) : Option Decimal :=
  let scale := max a.scale b.scale
  let sum :=
    a.signedMantissa * tenPow (scale - a.scale) + b.signedMantissa * tenPow (scale - b.scale)
  fit? (decide (sum < 0)) sum.natAbs scale 0

/-- Adding zero changes nothing, the scale included. -/
def add? (a b : Decimal) : Option Decimal :=
  if b.isZero then some a
  else if a.isZero then some b
  else addAligned? a b

def sub? (a b : Decimal) : Option Decimal :=
  if b.isZero then some a
  else if a.isZero then some b.neg
  else addAligned? a b.neg

def maxShortProductScale : Nat := 47

def mul? (a b : Decimal) : Option Decimal :=
  let scale := a.scale + b.scale
  if a.isZero || b.isZero then some zero
  else if a.mantissa < twoPow 32 ∧ b.mantissa < twoPow 32 ∧ maxShortProductScale < scale then
    some zero
  else fit? (a.negative != b.negative) (a.mantissa * b.mantissa) scale (scale - maxScale)

def stripZeros (mantissa : Nat) : (scale : Nat) → Nat × Nat
  | 0 => (mantissa, 0)
  | scale + 1 =>
    if mantissa % 10 = 0 then stripZeros (mantissa / 10) scale else (mantissa, scale + 1)

structure Quotient where
  mantissa : Nat
  scale : Int
deriving DecidableEq, Repr

namespace Quotient

/-- Drop `n` trailing zeros, if there are as many after the point. -/
def dropZeros (q : Quotient) (n : Nat) : Quotient :=
  if n ≤ q.scale ∧ q.mantissa % tenPow n = 0 then ⟨q.mantissa / tenPow n, q.scale - n⟩ else q

def dropEights (q : Quotient) : Quotient :=
  let steps := q.scale.toNat / 8
  steps.repeat (fun q => if q.mantissa % twoPow 32 = 0 then q.dropZeros 8 else q) q

/-- Drop up to seven trailing zeros, or more if the 32 low bits are clear. -/
def tidy (q : Quotient) : Quotient :=
  ((q.dropEights.dropZeros 4).dropZeros 2).dropZeros 1

/-- Give up the last place of a quotient that does not fit; `sticky` tells that more was cut off. -/
def shorten? (q : Quotient) (sticky : Bool) : Option Quotient :=
  if q.scale ≤ 0 then none
  else
    let m := q.mantissa / 10
    let last := q.mantissa % 10
    let up := 5 < last ∨ (last = 5 ∧ (sticky ∨ m % 2 = 1))
    some ⟨if up then m + 1 else m, q.scale - 1⟩

/-- Round a quotient that has no room for more places. -/
def round? (q : Quotient) (remainder divisor : Nat) : Option Quotient :=
  let up := divisor < 2 * remainder ∨ (2 * remainder = divisor ∧ q.mantissa % 2 = 1)
  if ¬up then some q
  else if q.mantissa + 1 < mantissaLimit then some ⟨q.mantissa + 1, q.scale⟩
  else shorten? ⟨q.mantissa + 1, q.scale⟩ true

def fits (q : Quotient) (n : Nat) : Bool :=
  decide (n ≤ maxScale - q.scale) && decide (q.mantissa * tenPow n < mantissaLimit)

def room (q : Quotient) : Nat := ((List.range' 1 9).reverse.find? q.fits).getD 0

theorem room_le (q : Quotient) (h : q.room ≠ 0) : q.room ≤ maxScale - q.scale := by
  simp only [room] at h ⊢
  cases hf : (List.range' 1 9).reverse.find? q.fits with
  | none => simp [hf] at h
  | some n =>
    have := List.find?_some hf
    simp only [fits, Bool.and_eq_true, decide_eq_true_eq] at this
    simpa using this.1

/--
Add places to a quotient until it is exact and has no negative scale, or until there is no room for
more of them. The result tells whether it was ever inexact.
-/
def extend? (divisor : Nat) (q : Quotient) (remainder : Nat) (inexact : Bool) :
    Option (Quotient × Bool) :=
  if remainder = 0 then
    if 0 ≤ q.scale then some (q, inexact)
    else
      let mantissa := q.mantissa * tenPow (-q.scale).toNat
      if mantissa < mantissaLimit then some (⟨mantissa, 0⟩, inexact) else none
  else if _ : q.room = 0 then
    if q.scale < 0 then none else (q.round? remainder divisor).map (·, true)
  else if q.room < 9 ∧ q.scale + q.room < 0 then none
  else
    let scaled := remainder * tenPow q.room
    let next : Quotient := ⟨q.mantissa * tenPow q.room + scaled / divisor, q.scale + q.room⟩
    if next.mantissa < mantissaLimit then extend? divisor next (scaled % divisor) true
    else (next.shorten? (scaled % divisor != 0)).map (·, true)
termination_by (maxScale - q.scale).toNat
decreasing_by
  have := room_le q (by assumption)
  omega

end Quotient

/--
The quotient. It is exact and has the difference of the scales if the mantissas divide without a
remainder; otherwise it has as many places as it takes in steps of nine, a half going to the even
neighbour when there is no room for them.
-/
def div? (a b : Decimal) : Option Decimal :=
  if b.isZero then none
  else if a.isZero then some zero
  else do
    let start : Quotient := ⟨a.mantissa / b.mantissa, (a.scale : Int) - b.scale⟩
    let (q, inexact) ← start.extend? b.mantissa (a.mantissa % b.mantissa) false
    let q := if inexact then q.tidy else q
    ofMagnitude? (a.negative != b.negative) q.mantissa q.scale.toNat

/-- The exact remainder of the quotient truncated towards zero; it has the sign of the dividend. -/
def rem? (a b : Decimal) : Option Decimal :=
  if b.isZero then none
  else
    let scale := max a.scale b.scale
    let num := a.mantissa * tenPow (scale - a.scale)
    let den := b.mantissa * tenPow (scale - b.scale)
    if num = 0 ∨ num = den then some zero
    else if num < den then some a
    else ofMagnitude? a.negative (num % den) scale

/-- The nearest integer, a half away from zero. What is rounded to zero loses its sign. -/
def round (d : Decimal) : Decimal :=
  if d.scale = 0 then d
  else
    let m := Ieee.divHalfUp d.mantissa (tenPow d.scale)
    (ofMagnitude? d.negative m 0).getD d.trunc

def floor (d : Decimal) : Decimal :=
  if d.scale = 0 then d
  else if d.negative && d.hasFraction then (d.trunc.sub? one).getD d.trunc
  else d.trunc

def ceil (d : Decimal) : Decimal :=
  if d.scale = 0 then d
  else if !d.negative && d.hasFraction then (d.trunc.add? one).getD d.trunc
  else d.trunc

end Edm.Decimal
