import Edm.Expr.Eval
import Edm.Proofs.Outcome

/-!
This module contains the laws of `not`, `and` and `or` in evaluation: the truth value of the whole
follows from those of its operands, be they known, unknown or missing because of a failure.
-/

namespace Edm.Expr

/-- The truth value of an outcome; a failure has none, and neither has any other value. -/
def truth? : Except Failure Value → Option (Option Bool)
  | .ok .null => some none
  | .ok (.boolean b) => some (some b)
  | _ => none

@[simp]
theorem truth?_ofTruth (a : Option Bool) : truth? (.ok (ofTruth a)) = some a := by
  cases a <;> rfl

theorem truth?_eq_some_iff {x : Except Failure Value} {a : Option Bool}
    : truth? x = some a ↔ x = .ok (ofTruth a) := by
  constructor
  . intro h
    unfold truth? at h
    split at h <;> cases h <;> rfl
  . rintro rfl
    apply truth?_ofTruth

theorem truth?_bind_truth (op : BinaryOp) (x : Except Failure Value)
    (f : Option Bool → Except Failure Value)
    : truth? (x >>= fun v => truth op v >>= f) = (truth? x).bind fun a => truth? (f a) := by
  cases x with
  | error failure => rfl
  | ok v => cases v <;> rfl

/-! ### Connectives of truth values that may be missing -/

def negation (x : Option (Option Bool)) : Option (Option Bool) := x.map (Option.map (!·))

/-- The second operand may be missing when the first one is false. -/
def conjunction (x y : Option (Option Bool)) : Option (Option Bool) :=
  x.bind fun a => if a = some false then some (some false) else y.map (andTruth a)

/-- The second operand may be missing when the first one is true. -/
def disjunction (x y : Option (Option Bool)) : Option (Option Bool) :=
  x.bind fun a => if a = some true then some (some true) else y.map (orTruth a)

theorem negation_negation (x : Option (Option Bool)) : negation (negation x) = x := by
  rcases x with _ | _ | a
  . rfl
  . rfl
  . simp [negation]

theorem negation_conjunction (x y : Option (Option Bool))
    : negation (conjunction x y) = disjunction (negation x) (negation y) := by
  rcases x with _ | _ | _ | _ <;> rcases y with _ | _ | _ | _ <;> rfl

theorem negation_disjunction (x y : Option (Option Bool))
    : negation (disjunction x y) = conjunction (negation x) (negation y) := by
  rw [← negation_negation (conjunction _ _), negation_conjunction, negation_negation,
    negation_negation]

/-! ### Evaluation -/

variable {α : Type} {resolve : Shape → Option (Accessor α)} {r : Record α}

theorem truth?_not (e : Expr)
    : truth? (evaluate resolve r (.not e)) = negation (truth? (evaluate resolve r e)) := by
  rw [evaluate]
  cases evaluate resolve r e with
  | error failure => rfl
  | ok v => cases v <;> rfl

/-- What `and` and `or` make of two outcomes. The second one does not matter if the first decides. -/
def connect (op : BinaryOp) (decisive : Bool) (combine : Option Bool → Option Bool → Option Bool)
    (x y : Except Failure Value) : Except Failure Value := do
  let a ← truth op (← x)
  if a = some decisive then return .boolean decisive
  let b ← truth op (← y)
  return ofTruth (combine a b)

theorem evaluate_and (lhs rhs : Expr)
    : evaluate resolve r (.binary .and lhs rhs)
        = connect .and false andTruth (evaluate resolve r lhs) (evaluate resolve r rhs) := by
  rw [evaluate]
  rfl

theorem evaluate_or (lhs rhs : Expr)
    : evaluate resolve r (.binary .or lhs rhs)
        = connect .or true orTruth (evaluate resolve r lhs) (evaluate resolve r rhs) := by
  rw [evaluate]
  rfl

theorem truth?_connect (op : BinaryOp) (decisive : Bool)
    (combine : Option Bool → Option Bool → Option Bool) (x y : Except Failure Value)
    : truth? (connect op decisive combine x y)
        = (truth? x).bind fun a =>
            if a = some decisive then some (some decisive) else (truth? y).map (combine a) := by
  unfold connect
  rw [truth?_bind_truth]
  congr 1
  funext a
  split
  . rfl
  . rw [truth?_bind_truth, Option.map_eq_bind]
    congr 1
    funext b
    apply truth?_ofTruth

theorem truth?_and (lhs rhs : Expr)
    : truth? (evaluate resolve r (.binary .and lhs rhs))
        = conjunction (truth? (evaluate resolve r lhs)) (truth? (evaluate resolve r rhs)) := by
  rw [evaluate_and, truth?_connect]
  rfl

theorem truth?_or (lhs rhs : Expr)
    : truth? (evaluate resolve r (.binary .or lhs rhs))
        = disjunction (truth? (evaluate resolve r lhs)) (truth? (evaluate resolve r rhs)) := by
  rw [evaluate_or, truth?_connect]
  rfl

theorem isSome_truth?_of_not {e : Expr} {v : Value} (h : evaluate resolve r (.not e) = .ok v)
    : (truth? (.ok v)).isSome := by
  rw [evaluate] at h
  obtain ⟨u, _, h⟩ := bind_eq_ok.mp h
  cases u with
  | null | boolean =>
    cases h
    rfl
  | _ => cases h

theorem isSome_truth?_of_connect {op : BinaryOp} {decisive : Bool}
    {combine : Option Bool → Option Bool → Option Bool} {x y : Except Failure Value} {v : Value}
    (h : connect op decisive combine x y = .ok v) : (truth? (.ok v)).isSome := by
  obtain ⟨_, _, h⟩ := bind_eq_ok.mp h
  obtain ⟨a, _, h⟩ := bind_eq_ok.mp h
  split at h
  . cases h
    rfl
  . obtain ⟨_, _, h⟩ := bind_eq_ok.mp h
    obtain ⟨b, _, h⟩ := bind_eq_ok.mp h
    cases h
    simp

theorem toOption_evaluatePredicate (e : Expr)
    : (evaluatePredicate resolve e r).toOption
        = (truth? (evaluate resolve r e)).map (· == some true) := by
  unfold evaluatePredicate
  cases evaluate resolve r e with
  | error failure => rfl
  | ok v =>
    cases v with
    | boolean b => cases b <;> rfl
    | _ => rfl

end Edm.Expr
