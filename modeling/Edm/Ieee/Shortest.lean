import Edm.Ieee

/-!
This module contains the choice of the decimal digits that stand for a float: the fewest digits
that still read back to it, and of those the nearest to it.
-/

namespace Edm.Ieee

structure Digits where
  digits : Nat
  exponent : Int
deriving DecidableEq, Repr

inductive Tie where
  | toEven
  | up
deriving DecidableEq, Repr

def decimalDigits (n : Nat) : List Char := Nat.toDigits 10 n

def digitCount (n : Nat) : Nat := (decimalDigits n).length

/--
A positive float among the reals that round to it, all over one decimal denominator `10 ^ places`:
the value lies between `low` and `high`, and the ends belong to the interval if `closed`.
-/
structure Interval where
  low : Nat
  value : Nat
  high : Nat
  closed : Bool
  places : Nat

/--
The interval of `m * 2 ^ q`. It reaches half way to the neighbours; the neighbour below a power of
two is half as far away as the one above.
-/
def Format.interval (f : Format) (m : Nat) (q : Int) : Interval :=
  let narrow := decide (m = f.fractionCount ∧ f.leastExponent < q)
  let quarter := q - 2
  let unit := if 0 ≤ quarter then twoPow quarter.toNat else Nat.pow 5 (-quarter).toNat
  { low := (if narrow then 4 * m - 1 else 4 * m - 2) * unit
    value := 4 * m * unit
    high := (4 * m + 2) * unit
    closed := m % 2 == 0
    places := (-quarter).toNat }

def Interval.contains (i : Interval) (n : Nat) : Bool :=
  (i.low < n && n < i.high) || (i.closed && (n = i.low || n = i.high))

/--
The candidate with `n` digits: of the two neighbours of the value on the grid of that many digits,
those that read back, and of two of them the nearer one.
-/
def Interval.candidate? (i : Interval) (tie : Tie) (n : Nat) : Option Digits :=
  let drop := digitCount i.value - n
  let grid := tenPow drop
  let below := i.value / grid
  let exponent := (drop : Int) - i.places
  match i.contains (below * grid), i.contains ((below + 1) * grid) with
  | false, false => none
  | true, false => some ⟨below, exponent⟩
  | false, true => some ⟨below + 1, exponent⟩
  | true, true =>
    let rest := i.value - below * grid
    if 2 * rest < grid then some ⟨below, exponent⟩
    else if grid < 2 * rest then some ⟨below + 1, exponent⟩
    else
      match tie with
      | .up => some ⟨below + 1, exponent⟩
      | .toEven => some ⟨if below % 2 = 0 then below else below + 1, exponent⟩

def Digits.strip (d : Digits) : Digits :=
  if h : d.digits ≠ 0 ∧ d.digits % 10 = 0 then
    strip ⟨d.digits / 10, d.exponent + 1⟩
  else d
termination_by d.digits
decreasing_by exact Nat.div_lt_self (Nat.pos_of_ne_zero h.1) (by decide)

def Format.shortest (f : Format) (tie : Tie) (m : Nat) (q : Int) : Digits :=
  let i := f.interval m q
  let found := (List.range' 1 17).findSome? (i.candidate? tie)
  (found.getD ⟨i.value, -i.places⟩).strip

example : binary64.shortest .toEven 0x1999999999999A (-56) = ⟨1, -1⟩ := by decide +kernel

example : binary64.shortest .toEven (twoPow 52) (-77) = ⟨29802322387695312, -24⟩ := by
  decide +kernel

example : binary64.shortest .up (twoPow 52) (-77) = ⟨29802322387695313, -24⟩ := by
  decide +kernel

end Edm.Ieee
