import Edm.Ieee.Shortest

/-!
This module contains the text of floats: the positional form that is shown and used in literals, the
form of JSON numbers, and the reading of decimal texts.
-/

namespace Edm.Ieee

def Digits.positional (d : Digits) : String :=
  let ds := decimalDigits d.digits
  if 0 ≤ d.exponent then
    .ofList (ds ++ .replicate d.exponent.toNat '0')
  else
    let places := (-d.exponent).toNat
    if places < ds.length then
      .ofList (ds.take (ds.length - places) ++ '.' :: ds.drop (ds.length - places))
    else
      .ofList ('0' :: '.' :: (.replicate (places - ds.length) '0' ++ ds))

def Digits.scientific (d : Digits) : String :=
  let ds := decimalDigits d.digits
  let e : Int := d.exponent + (ds.length - 1 : Nat)
  let mantissa := match ds with
    | [] => []
    | [c] => [c]
    | c :: rest => c :: '.' :: rest
  .ofList (mantissa ++ 'e' :: (if 0 ≤ e then '+' else '-') :: decimalDigits e.natAbs)

/-- Finite floats are shown without an exponent, and a half goes up. -/
def Format.display (f : Format) : Datum → String
  | .nan => "NaN"
  | .infinite negative => if negative then "-inf" else "inf"
  | .finite negative m q =>
    let body := if m = 0 then "0" else (f.shortest .up m q).positional
    if negative then "-" ++ body else body

/-- Floats that have a point in JSON rather than an exponent: the exponents of their first digit. -/
structure PlainRange where
  least : Int
  most : Int

def plainRange64 : PlainRange := ⟨-5, 15⟩

def plainRange32 : PlainRange := ⟨-6, 12⟩

/--
JSON numbers always have a point or an exponent, so that they read back as floats; there are none
for infinities and NaN.
-/
def Format.json (f : Format) (plain : PlainRange) : Datum → String
  | .nan => "null"
  | .infinite _ => "null"
  | .finite negative m q =>
    let body :=
      if m = 0 then "0.0"
      else
        let d := f.shortest .toEven m q
        let e : Int := d.exponent + (digitCount d.digits - 1 : Nat)
        if plain.least ≤ e ∧ e ≤ plain.most then
          if 0 ≤ d.exponent then d.positional ++ ".0" else d.positional
        else d.scientific
    if negative then "-" ++ body else body

def display (x : Float) : String := binary64.display (datum x)

def display32 (x : Float32) : String := binary32.display (datum32 x)

def json (x : Float) : String := binary64.json plainRange64 (datum x)

def json32 (x : Float32) : String := binary32.json plainRange32 (datum32 x)

def digitValue (c : Char) : Nat := c.toNat - '0'.toNat

def digitsValue (ds : List Char) : Nat := ds.foldl (fun n c => n * 10 + digitValue c) 0

/-- Split a leading sign off; the result tells whether it was a minus. -/
def splitSign : List Char → Bool × List Char
  | '-' :: cs => (true, cs)
  | '+' :: cs => (false, cs)
  | cs => (false, cs)

def readExponent? (cs : List Char) : Option Int :=
  let (negative, ds) := splitSign cs
  if !ds.isEmpty && ds.all Char.isDigit then
    some (if negative then -digitsValue ds else digitsValue ds)
  else none

/--
Read a decimal number: a sign, digits with at most one point among them and at least one digit, and
an optional exponent.
-/
def readDecimal? (cs : List Char) : Option (Bool × Nat × Int) := do
  let (negative, cs) := splitSign cs
  let whole := cs.takeWhile Char.isDigit
  let rest := cs.dropWhile Char.isDigit
  let (frac, rest) := match rest with
    | '.' :: rest => (rest.takeWhile Char.isDigit, rest.dropWhile Char.isDigit)
    | rest => ([], rest)
  if whole.isEmpty && frac.isEmpty then none
  else
    let exponent ← match rest with
      | [] => some 0
      | c :: rest => if c = 'e' ∨ c = 'E' then readExponent? rest else none
    some (negative, digitsValue (whole ++ frac), exponent - frac.length)

def read? (cs : List Char) : Option Float :=
  (readDecimal? cs).map fun (negative, m, e) =>
    .ofBits (.ofNat (binary64.withSign negative (binary64.ofDecimal m e)))

def read32? (cs : List Char) : Option Float32 :=
  (readDecimal? cs).map fun (negative, m, e) =>
    .ofBits (.ofNat (binary32.withSign negative (binary32.ofDecimal m e)))

end Edm.Ieee
