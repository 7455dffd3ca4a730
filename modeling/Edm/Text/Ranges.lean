/-!
This module contains sets and maps of characters as ranges of code points.
-/

namespace Edm.Text

/-- All code points from `first` to `last`. -/
structure CodeRange where
  first : Nat
  last : Nat

def CodeRange.contains (r : CodeRange) (c : Char) : Bool :=
  r.first ≤ c.toNat && c.toNat ≤ r.last

/-- Every `step`-th code point from `first` to `last`, each with the one `shift` away from it. -/
structure CodeRun where
  first : Nat
  last : Nat
  step : Nat
  shift : Int

def CodeRun.contains (r : CodeRun) (c : Char) : Bool :=
  r.first ≤ c.toNat && c.toNat ≤ r.last && (c.toNat - r.first) % r.step == 0

def CodeRun.apply (r : CodeRun) (c : Char) : Char :=
  .ofNat (c.toNat + r.shift).toNat

end Edm.Text
