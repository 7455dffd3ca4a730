import Edm.Power

/-!
This module contains the exact reading of binary floating point: the bits of a float as a sign and
a natural multiple of a power of two, the float nearest to a ratio of naturals, and the operations
on floats that are defined through these two (widening, rounding to an integer, remainder).
-/

namespace Edm

namespace Ieee

/--
A binary interchange format: `precision` significant bits, the leading one included, and
`exponentBits` bits of exponent.
-/
structure Format where
  precision : Nat
  exponentBits : Nat
deriving DecidableEq, Repr

def binary32 : Format := ⟨24, 8⟩

def binary64 : Format := ⟨53, 11⟩

namespace Format

def fractionCount (f : Format) : Nat := twoPow (f.precision - 1)

def topField (f : Format) : Nat := twoPow f.exponentBits - 1

def leastExponent (f : Format) : Int := 3 - twoPow (f.exponentBits - 1) - f.precision

def signPlace (f : Format) : Nat := f.fractionCount * twoPow f.exponentBits

def infinityBits (f : Format) : Nat := f.topField * f.fractionCount

end Format

/-- What the bits of a float stand for; a finite value is `m * 2 ^ q` with its sign. -/
inductive Datum where
  | nan
  | infinite (negative : Bool)
  | finite (negative : Bool) (m : Nat) (q : Int)
deriving DecidableEq, Repr

def Format.decode (f : Format) (bits : Nat) : Datum :=
  let negative := decide (f.signPlace ≤ bits)
  let field := bits / f.fractionCount % twoPow f.exponentBits
  let fraction := bits % f.fractionCount
  if field = f.topField then
    if fraction = 0 then .infinite negative else .nan
  else if field = 0 then
    .finite negative fraction f.leastExponent
  else
    .finite negative (f.fractionCount + fraction) (f.leastExponent + (field - 1))

def Format.withSign (f : Format) (negative : Bool) (magnitude : Nat) : Nat :=
  if negative then f.signPlace + magnitude else magnitude

/-- The quotient of two naturals rounded to the nearest integer, a half to the even neighbour. -/
def divEven (num den : Nat) : Nat :=
  let q := num / den
  let r := num % den
  if 2 * r < den then q
  else if den < 2 * r then q + 1
  else if q % 2 = 0 then q else q + 1

/-- The quotient of two naturals rounded to the nearest integer, a half upwards. -/
def divHalfUp (num den : Nat) : Nat :=
  (2 * num + den) / (2 * den)

/-- The exponent `e` with `2 ^ e ≤ num / den < 2 ^ (e + 1)` of a positive ratio. -/
def ratioLog (num den : Nat) : Int :=
  let e : Int := (num.log2 : Int) - den.log2
  if den * twoPow e.toNat ≤ num * twoPow (-e).toNat then e else e - 1

/--
The magnitude bits of the float nearest to `num / den`, a half to the even neighbour. A mantissa
that rounds up to the next power of two carries into the exponent field by itself.
-/
def Format.ofRatio (f : Format) (num den : Nat) : Nat :=
  if num = 0 then 0
  else
    let q := max f.leastExponent (ratioLog num den - (f.precision - 1))
    let m := divEven (num * twoPow (-q).toNat) (den * twoPow q.toNat)
    min ((q - f.leastExponent).toNat * f.fractionCount + m) f.infinityBits

/-- The magnitude bits of the float nearest to `m * 2 ^ q`. -/
def Format.ofBinary (f : Format) (m : Nat) (q : Int) : Nat :=
  f.ofRatio (m * twoPow q.toNat) (twoPow (-q).toNat)

/--
The magnitude bits of the float nearest to `m * 10 ^ e`. Values far outside of the range of `f` are
settled by their size alone.
-/
def Format.ofDecimal (f : Format) (m : Nat) (e : Int) : Nat :=
  if m = 0 then 0
  else
    let reach : Int := twoPow f.exponentBits
    if reach < e then f.infinityBits
    else if e + (m.log2 + 1 : Nat) < -reach then 0
    else f.ofRatio (m * tenPow e.toNat) (tenPow (-e).toNat)

/-- The bits of a decoded float; every NaN gets the same bits. -/
def Format.encode (f : Format) : Datum → Nat
  | .nan => f.infinityBits + f.fractionCount / 2
  | .infinite negative => f.withSign negative f.infinityBits
  | .finite negative m q => f.withSign negative (f.ofBinary m q)

namespace Datum

def toIntegral (integral : (negative : Bool) → (num den : Nat) → Nat) : Datum → Datum
  | .finite negative m q =>
    if 0 ≤ q then .finite negative m q
    else .finite negative (integral negative m (twoPow (-q).toNat)) 0
  | d => d

/-- The nearest integer, a half away from zero. -/
def round : Datum → Datum := toIntegral fun _ num den => divHalfUp num den

def floor : Datum → Datum :=
  toIntegral fun negative num den => if negative then (num + den - 1) / den else num / den

def ceil : Datum → Datum :=
  toIntegral fun negative num den => if negative then num / den else (num + den - 1) / den

end Datum

example : binary64.ofRatio 1 1 = 0x3FF0000000000000 := by decide +kernel
example : binary64.ofDecimal 5 (-324) = 1 := by decide +kernel
example : binary64.ofDecimal 1 400 = 0x7FF0000000000000 := by decide +kernel
example : binary32.ofDecimal 1 (-1) = 0x3DCCCCCD := by decide +kernel

def datum (x : Float) : Datum := binary64.decode x.toBits.toNat

def datum32 (x : Float32) : Datum := binary32.decode x.toBits.toNat

def ofDatum (d : Datum) : Float := .ofBits (.ofNat (binary64.encode d))

def ofDatum32 (d : Datum) : Float32 := .ofBits (.ofNat (binary32.encode d))

def widen (x : Float32) : Float := ofDatum (datum32 x)

def ofInt (n : Int) : Float := ofDatum (.finite (decide (n < 0)) n.natAbs 0)

def ofNat (n : Nat) : Float := ofDatum (.finite false n 0)

/-- The integer nearest to a double, a half away from zero. -/
def round (x : Float) : Float := ofDatum (datum x).round

/-- The exact remainder of the quotient truncated towards zero; it has the sign of the dividend. -/
def rem (x y : Float) : Float :=
  match datum x, datum y with
  | .finite negative m q, .finite _ n r =>
    if n = 0 then ofDatum .nan
    else
      let s := min q r
      ofDatum (.finite negative ((m * twoPow (q - s).toNat) % (n * twoPow (r - s).toNat)) s)
  | .finite .., .infinite _ => x
  | _, _ => ofDatum .nan

/-- The order of the numbers, with every NaN equal to itself and after all others. -/
def order (x y : Float) : Ordering :=
  if x < y then .lt
  else if y < x then .gt
  else if x == y then .eq
  else compare x.isNaN y.isNaN

end Ieee

end Edm
