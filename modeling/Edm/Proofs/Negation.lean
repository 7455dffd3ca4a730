import Edm.Expr.Eval
import Edm.Proofs.Truth

/-!
This module contains the negation normal form of filters: `not` is driven inward through `and`, `or`
and `not`, and a negated comparison becomes the opposite one. The main statement is that this
changes for no record whether it is kept, or whether the filter fails.
-/

namespace Edm

/-- The comparison that holds of two values that can be compared when the given one does not. -/
def Comparison.opposite : Comparison → Comparison
  | .eq => .ne
  | .ne => .eq
  | .lt => .ge
  | .ge => .lt
  | .le => .gt
  | .gt => .le

namespace Expr

/-- Drive `not` inward, where `negated` tells whether the whole expression is under a `not`. -/
def pushNot : Bool → Expr → Expr
  | negated, .not e => pushNot (!negated) e
  | negated, .binary .and lhs rhs =>
    .binary (if negated then .or else .and) (pushNot negated lhs) (pushNot negated rhs)
  | negated, .binary .or lhs rhs =>
    .binary (if negated then .and else .or) (pushNot negated lhs) (pushNot negated rhs)
  | true, .binary (.comparison c) lhs rhs => .binary (.comparison c.opposite) lhs rhs
  | true, e => .not e
  | false, e => e

def nnf (e : Expr) : Expr := e.pushNot false

def isOperand : Expr → Bool
  | .not _ | .binary .and _ _ | .binary .or _ _ => false
  | _ => true

def isComparison : Expr → Bool
  | .binary (.comparison _) _ _ => true
  | _ => false

/-- The expressions in which only operands that are no comparisons are negated. -/
inductive IsNnf : Expr → Prop where
  | operand {e : Expr} (h : e.isOperand) : IsNnf e
  | not {e : Expr} (h : e.isOperand) (hcomparison : e.isComparison = false) : IsNnf (.not e)
  | and {lhs rhs : Expr} (hl : IsNnf lhs) (hr : IsNnf rhs) : IsNnf (.binary .and lhs rhs)
  | or {lhs rhs : Expr} (hl : IsNnf lhs) (hr : IsNnf rhs) : IsNnf (.binary .or lhs rhs)

theorem isOperand_of_ne {e : Expr} (hnot : ∀ inner, e ≠ .not inner)
    (hand : ∀ lhs rhs, e ≠ .binary .and lhs rhs) (hor : ∀ lhs rhs, e ≠ .binary .or lhs rhs)
    : e.isOperand := by
  unfold isOperand
  split
  . next inner => exact absurd rfl (hnot inner)
  . next lhs rhs => exact absurd rfl (hand lhs rhs)
  . next lhs rhs => exact absurd rfl (hor lhs rhs)
  . rfl

theorem isComparison_of_ne {e : Expr} (h : ∀ c lhs rhs, e ≠ .binary (.comparison c) lhs rhs)
    : e.isComparison = false := by
  unfold isComparison
  split
  . next c lhs rhs => exact absurd rfl (h c lhs rhs)
  . rfl

theorem isNnf_pushNot (negated : Bool) (e : Expr) : (e.pushNot negated).IsNnf := by
  fun_induction pushNot negated e with
  | case1 negated e ih => exact ih
  | case2 negated lhs rhs ihl ihr =>
    cases negated with
    | true => exact .or ihl ihr
    | false => exact .and ihl ihr
  | case3 negated lhs rhs ihl ihr =>
    cases negated with
    | true => exact .and ihl ihr
    | false => exact .or ihl ihr
  | case4 c lhs rhs => exact .operand rfl
  | case5 e hnot hand hor hcomparison =>
    exact .not (isOperand_of_ne hnot hand hor) (isComparison_of_ne hcomparison)
  | case6 e hnot hand hor => exact .operand (isOperand_of_ne hnot hand hor)

section

variable {α : Type} {resolve : Shape → Option (Accessor α)} {r : Record α}

theorem holds_opposite (c : Comparison) (ord : Ordering)
    : holds c.opposite ord = !holds c ord := by
  cases c <;> cases ord <;> rfl

theorem truth?_comparison_opposite (c : Comparison) (a b : Value)
    : truth? (comparison c.opposite a b) = negation (truth? (comparison c a b)) := by
  have hcompare : truth? (do return .boolean (holds c.opposite (← compareValues a b)))
      = negation (truth? (do return .boolean (holds c (← compareValues a b)))) := by
    cases compareValues a b with
    | error failure => rfl
    | ok ord =>
      simp only [holds_opposite]
      rfl
  cases c with
  | eq | ne =>
    unfold comparison
    cases a.isNull <;> cases b.isNull
    . exact hcompare
    all_goals rfl
  | lt | le | gt | ge =>
    unfold comparison
    cases a.isNull || b.isNull
    . exact hcompare
    . rfl

theorem truth?_opposite (c : Comparison) (lhs rhs : Expr)
    : truth? (evaluate resolve r (.binary (.comparison c.opposite) lhs rhs))
        = negation (truth? (evaluate resolve r (.binary (.comparison c) lhs rhs))) := by
  rw [evaluate, evaluate]
  cases evaluate resolve r lhs with
  | error failure => rfl
  | ok a =>
    cases evaluate resolve r rhs with
    | error failure => rfl
    | ok b => exact truth?_comparison_opposite c a b

theorem truth?_pushNot (negated : Bool) (e : Expr)
    : truth? (evaluate resolve r (e.pushNot negated))
        = if negated then negation (truth? (evaluate resolve r e))
          else truth? (evaluate resolve r e) := by
  fun_induction pushNot negated e with
  | case1 negated e ih =>
    rw [ih, truth?_not]
    cases negated with
    | true => simp [negation_negation]
    | false => simp
  | case2 negated lhs rhs ihl ihr =>
    rw [truth?_and]
    cases negated with
    | true => simp only [if_true, truth?_or, ihl, ihr, negation_conjunction]
    | false => simp [truth?_and, ihl, ihr]
  | case3 negated lhs rhs ihl ihr =>
    rw [truth?_or]
    cases negated with
    | true => simp only [if_true, truth?_and, ihl, ihr, negation_disjunction]
    | false => simp [truth?_or, ihl, ihr]
  | case4 c lhs rhs => exact truth?_opposite c lhs rhs
  | case5 e hnot hand hor hcomparison => exact truth?_not e
  | case6 e hnot hand hor => rfl

/--
The negation normal form of a filter keeps the same records and fails for the same ones, and `not`
is left in front of operands only that are no comparisons.
-/
theorem evaluatePredicate_nnf (e : Expr)
    : e.nnf.IsNnf
        ∧
      (evaluatePredicate resolve e.nnf r).toOption = (evaluatePredicate resolve e r).toOption := by
  constructor
  . apply isNnf_pushNot
  . rw [toOption_evaluatePredicate, toOption_evaluatePredicate]
    unfold nnf
    rw [truth?_pushNot]
    simp

end

/-- `not (Price lt 5 and not startswith(Name, 'x'))` -/
example
    : nnf (.not (.binary .and
          (.binary (.comparison .lt) (.property ["Price"]) (.literal (.int32 5)))
          (.not (.call .startswith [.property ["Name"], .literal (.string "x")]))))
        = .binary .or
            (.binary (.comparison .ge) (.property ["Price"]) (.literal (.int32 5)))
            (.call .startswith [.property ["Name"], .literal (.string "x")]) := by
  rfl

end Expr

end Edm
