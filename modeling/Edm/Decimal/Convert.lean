import Edm.Decimal.Arith

/-!
This module contains the conversions between decimals and doubles.
-/

namespace Edm.Decimal

/--
The double of a decimal. An integral decimal becomes the nearest double. Otherwise the fractional
part is added to the integral part as a double, and the sum is rounded to the places of the scale.
-/
def toFloat (d : Decimal) : Float :=
  let withSign (x : Float) : Float := if d.negative then -x else x
  if d.scale = 0 then Ieee.ofInt d.signedMantissa
  else
    let power := tenPow d.scale
    let integral := Ieee.ofNat (d.mantissa / power)
    if d.mantissa % power = 0 then withSign integral
    else
      let places := Ieee.ofNat power
      let value := integral + Ieee.ofNat (d.mantissa % power) / places
      withSign (Ieee.round (value * places) / places)

structure Scaled where
  mantissa : Nat
  exponent : Int
deriving DecidableEq, Repr

namespace Scaled

/--
Multiply by `5 ^ n`. An even mantissa is halved instead, which is five tenths, and so is one that
has no room for a factor of five; there the last bit is lost.
-/
def mulFives (x : Scaled) : (n : Nat) → Scaled
  | 0 => x
  | n + 1 =>
    if x.mantissa % 2 ≠ 0 ∧ x.mantissa * 5 < mantissaLimit then
      mulFives ⟨x.mantissa * 5, x.exponent⟩ n
    else
      mulFives ⟨x.mantissa / 2, x.exponent + 1⟩ n

def divFives (x : Scaled) : (n : Nat) → Scaled
  | 0 => x
  | n + 1 =>
    if x.mantissa * 2 < mantissaLimit then divFives ⟨x.mantissa * 2, x.exponent - 1⟩ n
    else divFives ⟨x.mantissa / 5, x.exponent⟩ n

/-- The nearest multiple of the next power of ten, a half upwards. -/
def shorten (x : Scaled) : Scaled := ⟨Ieee.divHalfUp x.mantissa 10, x.exponent + 1⟩

/-- Round to at most 28 places; a mantissa that has no digits left is zero. -/
def clipPlaces (x : Scaled) : (steps : Nat) → Scaled
  | 0 => x
  | n + 1 =>
    if x.exponent < -maxScale then
      if x.mantissa / 10 = 0 then ⟨0, 0⟩ else clipPlaces x.shorten n
    else x

/-- A double has no more than this many mantissas, so places beyond them are dropped. -/
def precisionLimit : Nat := twoPow 52

def clipPrecision (x : Scaled) : (steps : Nat) → Scaled
  | 0 => x
  | n + 1 =>
    if x.exponent < 0 ∧ precisionLimit ≤ x.mantissa then clipPrecision x.shorten n else x

end Scaled

/-- The decimal of `m * 2 ^ q` with the precision of a double and without trailing zeros. -/
def ofBinary? (negative : Bool) (m : Nat) (q : Int) : Option Decimal :=
  let x : Scaled := ⟨m, q⟩
  let x := if q < 0 then x.mulFives (-q).toNat else x.divFives q.toNat
  if 0 < x.exponent then
    if maxScale < x.exponent then none
    else ofParts? negative (x.mantissa * tenPow x.exponent.toNat) 0
  else
    let x := x.clipPlaces (-x.exponent).toNat
    let x := x.clipPrecision (-x.exponent).toNat
    let (mantissa, scale) := stripZeros x.mantissa (-x.exponent).toNat
    ofParts? negative mantissa scale

/-- The decimal of a finite double; zero keeps its sign. -/
def ofFloat? (x : Float) : Option Decimal :=
  match Ieee.datum x with
  | .finite negative m q => if m = 0 then ofParts? negative 0 0 else ofBinary? negative m q
  | _ => none

end Edm.Decimal
