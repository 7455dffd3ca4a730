import Edm.Ieee

/-!
This module contains exact decimals: a sign, a mantissa of at most 96 bits and a scale of at most 28
places. Decimals of different scale may denote the same number; `order` compares the numbers.
-/

namespace Edm

def Decimal.mantissaLimit : Nat := 79228162514264337593543950336

def Decimal.maxScale : Nat := 28

/-- The number `mantissa / 10 ^ scale` with its sign, which zero has too. -/
structure Decimal where
  negative : Bool
  mantissa : Nat
  scale : Nat
  mantissa_lt : mantissa < Decimal.mantissaLimit
  scale_le : scale ≤ Decimal.maxScale
deriving DecidableEq, Repr

namespace Decimal

def zero : Decimal := ⟨false, 0, 0, by decide, by decide⟩

instance : Inhabited Decimal := ⟨zero⟩

def ofParts? (negative : Bool) (mantissa scale : Nat) : Option Decimal :=
  if h : mantissa < mantissaLimit ∧ scale ≤ maxScale then
    some ⟨negative, mantissa, scale, h.1, h.2⟩
  else none

def ofNat (n : Nat) (h : n < mantissaLimit := by decide) : Decimal :=
  ⟨false, n, 0, h, by decide⟩

def one : Decimal := ofNat 1

def ofInt64 (n : Int64) : Decimal where
  negative := decide (n.toInt < 0)
  mantissa := n.toInt.natAbs
  scale := 0
  mantissa_lt := by
    have h₁ := n.le_toInt
    have h₂ := n.toInt_lt
    simp only [mantissaLimit]
    omega
  scale_le := by decide

def isZero (d : Decimal) : Bool := d.mantissa == 0

def signedMantissa (d : Decimal) : Int := if d.negative then -(d.mantissa : Int) else d.mantissa

def order (a b : Decimal) : Ordering :=
  compare (a.signedMantissa * tenPow b.scale) (b.signedMantissa * tenPow a.scale)

/-- The other sign, of zero too. -/
def neg (d : Decimal) : Decimal := { d with negative := !d.negative }

theorem div_lt_limit {n : Nat} (h : n < mantissaLimit) (k : Nat) : n / k < mantissaLimit :=
  Nat.lt_of_le_of_lt (Nat.div_le_self n k) h

def trunc (d : Decimal) : Decimal :=
  ⟨d.negative, d.mantissa / tenPow d.scale, 0, div_lt_limit d.mantissa_lt _, by decide⟩

def hasFraction (d : Decimal) : Bool := d.mantissa % tenPow d.scale != 0

end Decimal

end Edm
