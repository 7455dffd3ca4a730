import Mathlib
import Edm.Expr.Eval
import Edm.Proofs.Outcome

/-!
This module contains the laws of computing with integers in expressions. A result is that of
integers without bounds, in 32 bits if it fits and the operands have no more and else in 64 bits,
and it is refused if 64 bits are not enough.
-/

namespace Edm

variable {α : Type}

/-- Whether an integer can be written in two's complement with some number of bits. -/
def FitsIn (bits : Nat) (n : Int) : Prop := -2 ^ (bits - 1) ≤ n ∧ n < 2 ^ (bits - 1)

instance (bits : Nat) (n : Int) : Decidable (FitsIn bits n) := inferInstanceAs (Decidable (_ ∧ _))

theorem fitsIn_32_iff {n : Int} : FitsIn 32 n ↔ -2147483648 ≤ n ∧ n ≤ 2147483647 := by
  unfold FitsIn
  omega

theorem fitsIn_64_iff {n : Int}
    : FitsIn 64 n ↔ -9223372036854775808 ≤ n ∧ n ≤ 9223372036854775807 := by
  unfold FitsIn
  omega

theorem fitsIn_toInt (n : Int64) : FitsIn 64 n.toInt := by
  have hle := n.le_toInt
  have hlt := n.toInt_lt
  rw [fitsIn_64_iff]
  omega

theorem toInt_ofInt_of_fitsIn {n : Int} (h : FitsIn 64 n) : (Int64.ofInt n).toInt = n := by
  rw [fitsIn_64_iff] at h
  apply Int64.toInt_ofInt_of_le
  all_goals omega

/-- A value of an integer type of some number of bits, and the integer that it stands for. -/
inductive Value.IsInteger : Value → Nat → Int → Prop where
  | byte (n : UInt8) : IsInteger (.byte n) 8 n.toNat
  | sbyte (n : Int8) : IsInteger (.sbyte n) 8 n.toInt
  | int16 (n : Int16) : IsInteger (.int16 n) 16 n.toInt
  | int32 (n : Int32) : IsInteger (.int32 n) 32 n.toInt
  | int64 (n : Int64) : IsInteger (.int64 n) 64 n.toInt

namespace ArithmeticOp

def exact : ArithmeticOp → Int → Int → Int
  | .add => (· + ·)
  | .sub => (· - ·)
  | .mul => (· * ·)
  | .div => Int.tdiv
  | .mod => Int.tmod

/-- Whether there is no result in 64 bits; a remainder is refused where the quotient is. -/
def Refuses (op : ArithmeticOp) (m n : Int) : Prop :=
  match op with
  | .div | .mod => n = 0 ∨ ¬ FitsIn 64 (div.exact m n)
  | op => ¬ FitsIn 64 (op.exact m n)

instance (op : ArithmeticOp) (m n : Int) : Decidable (op.Refuses m n) :=
  match op with
  | .add | .sub | .mul => inferInstanceAs (Decidable (¬ _))
  | .div | .mod => inferInstanceAs (Decidable (_ ∨ _))

end ArithmeticOp

/-- The number of bits of a result of operands with at most the given number of bits. -/
def resultBits (bits : Nat) (n : Int) : Nat := if bits ≤ 32 ∧ FitsIn 32 n then 32 else 64

/-- A computation gives an integer exactly, or it is refused for some cause. -/
structure IsExact (outcome : Except Failure Value) (bits : Nat) (n : Int) (refused : Prop)
    (cause : BadExpression) : Prop where
  result : ¬ refused → ∃ v, outcome = .ok v ∧ v.IsInteger (resultBits bits n) n
  refusal : refused → outcome = Expr.failing cause

namespace Value.IsInteger

variable {v : Value} {bits : Nat} {n : Int}

theorem isNull_eq (h : v.IsInteger bits n) : v.isNull = false := by
  cases h <;> rfl

theorem isNarrow_eq (h : v.IsInteger bits n) : Expr.isNarrow v = decide (bits ≤ 32) := by
  cases h <;> rfl

theorem integer?_eq (h : v.IsInteger bits n) : v.integer? = some (.ofInt n) := by
  cases h with
  | int64 n => rw [Value.integer?, Int64.ofInt_toInt]
  | _ => rfl

theorem number_eq (h : v.IsInteger bits n) : Expr.number v = .ok (.integer (.ofInt n)) := by
  cases h with
  | int64 n =>
    rw [Int64.ofInt_toInt]
    rfl
  | _ => rfl

theorem fitsIn (h : v.IsInteger bits n) : FitsIn (if bits ≤ 32 then 32 else 64) n := by
  cases h with
  | byte n =>
    have := n.toNat_lt
    rw [if_pos (by omega), fitsIn_32_iff]
    omega
  | sbyte n =>
    have := n.le_toInt
    have := n.toInt_lt
    rw [if_pos (by omega), fitsIn_32_iff]
    omega
  | int16 n =>
    have := n.le_toInt
    have := n.toInt_lt
    rw [if_pos (by omega), fitsIn_32_iff]
    omega
  | int32 n =>
    have := n.le_toInt
    have := n.toInt_lt
    rw [if_pos (by omega), fitsIn_32_iff]
    omega
  | int64 n => exact fitsIn_toInt n

theorem fitsIn_32 (h : v.IsInteger bits n) (hbits : bits ≤ 32) : FitsIn 32 n := by
  simpa only [if_pos hbits] using h.fitsIn

theorem fitsIn_64 (h : v.IsInteger bits n) : FitsIn 64 n := by
  have hfits := h.fitsIn
  split at hfits
  . rw [fitsIn_32_iff] at hfits
    rw [fitsIn_64_iff]
    omega
  . exact hfits

end Value.IsInteger

namespace Numeric

theorem int64?_of_fitsIn {n : Int} (h : FitsIn 64 n) : int64? n = some (.ofInt n) := by
  unfold int64?
  rw [if_pos (fitsIn_64_iff.mp h)]

theorem int64?_of_not_fitsIn {n : Int} (h : ¬ FitsIn 64 n) : int64? n = none := by
  unfold int64?
  rw [if_neg (by rwa [← fitsIn_64_iff])]

theorem isInteger_integerValue {bits : Nat} {n : Int} (h : FitsIn 64 n)
    : (integerValue (decide (bits ≤ 32)) (.ofInt n)).IsInteger (resultBits bits n) n := by
  unfold integerValue resultBits
  simp only [toInt_ofInt_of_fitsIn h, decide_eq_true_eq, ← fitsIn_32_iff]
  split
  . next hnarrow =>
    have hfits := fitsIn_32_iff.mp hnarrow.2
    have hvalue := Value.IsInteger.int32 (.ofInt n)
    rwa [Int32.toInt_ofInt_of_le (by omega) (by omega)] at hvalue
  . have hvalue := Value.IsInteger.int64 (.ofInt n)
    rwa [toInt_ofInt_of_fitsIn h] at hvalue

theorem fitsIn_tmod {m : Int} (hm : FitsIn 64 m) (n : Int) : FitsIn 64 (m.tmod n) := by
  have hle := Nat.mod_le m.natAbs n.natAbs
  rw [← Int.natAbs_tmod] at hle
  rw [fitsIn_64_iff] at hm ⊢
  -- The remainder has the sign of the dividend, so the least integer is no exception.
  rcases Int.le_total 0 m with hpos | hneg
  . have := Int.tmod_nonneg n hpos
    omega
  . have := Int.tmod_nonneg n (Int.neg_nonneg_of_nonpos hneg)
    rw [Int.neg_tmod] at this
    omega

theorem fitsIn_exact {op : ArithmeticOp} {m n : Int} (hm : FitsIn 64 m) (h : ¬ op.Refuses m n)
    : FitsIn 64 (op.exact m n) := by
  cases op with
  | add | sub | mul => exact Decidable.not_not.mp h
  | div => exact Decidable.not_not.mp (not_or.mp h).2
  | mod => exact fitsIn_tmod hm n

theorem applyInteger?_of_refuses {op : ArithmeticOp} {m n : Int} (h : op.Refuses m n)
    : applyInteger? op m n = none := by
  have hquotient : ¬ FitsIn 64 (m.tdiv n) → int64? (m.tdiv n) = none := int64?_of_not_fitsIn
  cases op with
  | add | sub | mul => exact int64?_of_not_fitsIn h
  | div | mod =>
    simp only [applyInteger?]
    rcases h with hzero | hlarge
    . rw [if_pos hzero]
    . simp [hquotient hlarge]

theorem applyInteger?_of_not_refuses {op : ArithmeticOp} {m n : Int} (hm : FitsIn 64 m)
    (h : ¬ op.Refuses m n) : applyInteger? op m n = some (.ofInt (op.exact m n)) := by
  have hexact := int64?_of_fitsIn (fitsIn_exact hm h)
  cases op with
  | add | sub | mul => exact hexact
  | div =>
    simp only [applyInteger?, if_neg (not_or.mp h).1]
    exact hexact
  | mod =>
    have hquotient : int64? (m.tdiv n) = some (.ofInt (m.tdiv n)) :=
      int64?_of_fitsIn (Decidable.not_not.mp (not_or.mp h).2)
    simp only [applyInteger?, if_neg (not_or.mp h).1, hquotient, Option.bind_some]
    exact hexact

end Numeric

namespace ArithmeticOp

theorem refuses_iff_of_fitsIn_32 (op : ArithmeticOp) {m n : Int} (hm : FitsIn 32 m)
    (hn : FitsIn 32 n) : op.Refuses m n ↔ (op = .div ∨ op = .mod) ∧ n = 0 := by
  rw [fitsIn_32_iff] at hm hn
  cases op with
  | add =>
    have hsum : FitsIn 64 (m + n) := by
      rw [fitsIn_64_iff]
      omega
    simp [Refuses, exact, hsum]
  | sub =>
    have hdifference : FitsIn 64 (m - n) := by
      rw [fitsIn_64_iff]
      omega
    simp [Refuses, exact, hdifference]
  | mul =>
    have hproduct : FitsIn 64 (m * n) := by
      have hle : m.natAbs * n.natAbs ≤ 2147483648 * 2147483648 := by
        apply Nat.mul_le_mul
        all_goals omega
      rw [← Int.natAbs_mul] at hle
      rw [fitsIn_64_iff]
      omega
    simp [Refuses, exact, hproduct]
  | div | mod =>
    have hquotient : FitsIn 64 (m.tdiv n) := by
      have hle := Int.natAbs_tdiv_le_natAbs m n
      rw [fitsIn_64_iff]
      omega
    simp [Refuses, exact, hquotient]

end ArithmeticOp

namespace Expr

theorem isExact_arithmetic (op : ArithmeticOp) {a b : Value} {i j : Nat} {m n : Int}
    (ha : a.IsInteger i m) (hb : b.IsInteger j n)
    : IsExact (arithmetic op a b) (max i j) (op.exact m n) (op.Refuses m n)
        (.arithmetic a.toText op.keyword b.toText) := by
  have hcompute : Numeric.compute? op (.integer (.ofInt m)) (.integer (.ofInt n))
      = (Numeric.applyInteger? op m n).map .integer := by
    simp only [Numeric.compute?, Numeric.promote, toInt_ofInt_of_fitsIn ha.fitsIn_64,
      toInt_ofInt_of_fitsIn hb.fitsIn_64]
  have hnarrow : (isNarrow a && isNarrow b) = decide (max i j ≤ 32) := by
    rw [ha.isNarrow_eq, hb.isNarrow_eq, ← Bool.decide_and]
    exact decide_eq_decide.mpr Nat.max_le.symm
  unfold arithmetic
  rw [ha.number_eq, hb.number_eq, ok_bind, ok_bind, hcompute, hnarrow]
  constructor
  . intro h
    have hfits := Numeric.fitsIn_exact ha.fitsIn_64 h
    rw [Numeric.applyInteger?_of_not_refuses ha.fitsIn_64 h]
    exact ⟨_, rfl, Numeric.isInteger_integerValue hfits⟩
  . intro h
    rw [Numeric.applyInteger?_of_refuses h]
    rfl

theorem isExact_negate {a : Value} {i : Nat} {m : Int} (ha : a.IsInteger i m)
    : IsExact (negate a) i (-m) (m = -9223372036854775808) (.notNegatable a.toText) := by
  have hm := fitsIn_64_iff.mp ha.fitsIn_64
  unfold negate
  rw [ha.number_eq, ok_bind, ha.isNarrow_eq, Numeric.neg?, toInt_ofInt_of_fitsIn ha.fitsIn_64]
  constructor
  . intro h
    have hfits : FitsIn 64 (-m) := by
      rw [fitsIn_64_iff]
      omega
    rw [Numeric.int64?_of_fitsIn hfits]
    exact ⟨_, rfl, Numeric.isInteger_integerValue hfits⟩
  . rintro rfl
    rfl

section

variable {resolve : Shape → Option (Accessor α)} {r : Record α} {lhs rhs : Expr} {a b : Value}
  {i j : Nat} {m n : Int}

theorem evaluate_arithmetic (op : ArithmeticOp) (hlhs : evaluate resolve r lhs = .ok a)
    (hrhs : evaluate resolve r rhs = .ok b) (ha : a.IsInteger i m) (hb : b.IsInteger j n)
    : evaluate resolve r (.binary (.arithmetic op) lhs rhs) = arithmetic op a b := by
  rw [evaluate, hlhs, ok_bind, hrhs, ok_bind, ha.isNull_eq, hb.isNull_eq]
  rfl

theorem evaluate_neg (he : evaluate resolve r lhs = .ok a) (ha : a.IsInteger i m)
    : evaluate resolve r (.neg lhs) = negate a := by
  rw [evaluate, he, ok_bind, ha.isNull_eq]
  rfl

/-- Integers are computed with exactly, or not at all. -/
theorem evaluate_integers (hlhs : evaluate resolve r lhs = .ok a)
    (hrhs : evaluate resolve r rhs = .ok b) (ha : a.IsInteger i m) (hb : b.IsInteger j n)
    : (∀ op : ArithmeticOp,
        IsExact (evaluate resolve r (.binary (.arithmetic op) lhs rhs)) (max i j) (op.exact m n)
          (op.Refuses m n) (.arithmetic a.toText op.keyword b.toText)
        ∧ (i ≤ 32 → j ≤ 32 → (op.Refuses m n ↔ (op = .div ∨ op = .mod) ∧ n = 0)))
      ∧ IsExact (evaluate resolve r (.neg lhs)) i (-m) (m = -9223372036854775808)
          (.notNegatable a.toText) := by
  constructor
  . intro op
    rw [evaluate_arithmetic op hlhs hrhs ha hb]
    constructor
    . exact isExact_arithmetic op ha hb
    . intro hi hj
      exact op.refuses_iff_of_fitsIn_32 (ha.fitsIn_32 hi) (hb.fitsIn_32 hj)
  . rw [evaluate_neg hlhs ha]
    exact isExact_negate ha

end

namespace Extremes

def resolve (_ : Shape) : Option (Accessor Unit) := none

def empty : Record Unit := ⟨⟨"empty"⟩, ()⟩

def least : Expr := .literal (.int64 (-9223372036854775808))

def minusOne : Expr := .literal (.int32 (-1))

/-- No other quotient of integers but this one is too large. -/
theorem evaluate_integers_least
    : (∃ v, evaluate resolve empty (.binary (.arithmetic .sub) least minusOne) = .ok v
        ∧ v.IsInteger 64 (-9223372036854775807))
      ∧ evaluate resolve empty (.binary (.arithmetic .mod) least minusOne)
        = failing (.arithmetic "-9223372036854775808" "mod" "-1")
      ∧ evaluate resolve empty (.neg least) = failing (.notNegatable "-9223372036854775808") := by
  have hleast : evaluate resolve empty least = .ok (.int64 (-9223372036854775808)) := rfl
  have hminusOne : evaluate resolve empty minusOne = .ok (.int32 (-1)) := rfl
  obtain ⟨hbinary, hneg⟩ := evaluate_integers hleast hminusOne (.int64 _) (.int32 _)
  exact ⟨(hbinary .sub).1.result (by decide), (hbinary .mod).1.refusal (by decide),
    hneg.refusal rfl⟩

end Extremes

end Expr

end Edm
