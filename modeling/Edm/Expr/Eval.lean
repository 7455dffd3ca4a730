import Edm.Expr.Functions
import Edm.Record

/-!
This module contains the evaluation of expressions on records. Null is a value for `eq` and `ne`;
the other comparisons, arithmetic and functions have no value when an operand has none; `and`, `or`
and `not` take null for an unknown truth value.
-/

namespace Edm.Expr

variable {α : Type}

def readField (resolve : Shape → Option (Accessor α)) (path : Path) (r : Record α)
    (field : String) : Except Failure (FieldValue α) :=
  match resolve r.shape with
  | none => failing (.noAccessor path.toText r.shape.label)
  | some accessor =>
    match accessor.get r.data field with
    | .ok v => .ok v
    | .error (.notFound what) => failing (.missing path.toText what)
    | .error (.invalidRecord cause) => failing (.unreadable path.toText cause)
    | .error failure => .error failure

def followPath (resolve : Shape → Option (Accessor α)) (path : Path) (r : Record α) :
    Path → Except Failure Value
  | [] => failing .emptyPath
  | [last] => do
    match ← readField resolve path r last with
    | .null => .ok .null
    | .simple v => .ok v
    | .enum member => .ok (.string member)
    | .record _ => failing (.structured path.toText)
  | segment :: rest => do
    match ← readField resolve path r segment with
    | .null => .ok .null
    | .record next => followPath resolve path next rest
    | _ => failing (.notStructured path.toText segment)

def comparison (c : Comparison) (a b : Value) : Except Failure Value :=
  match c with
  | .eq | .ne =>
    match a.isNull, b.isNull with
    | false, false => do return .boolean (holds c (← compareValues a b))
    | m, n => .ok (.boolean ((m == n) == (c == .eq)))
  | _ =>
    if a.isNull || b.isNull then .ok .null
    else do return .boolean (holds c (← compareValues a b))

mutual

def evaluate (resolve : Shape → Option (Accessor α)) (r : Record α) : Expr → Except Failure Value
  | .literal v => .ok v
  | .property path => followPath resolve path r path
  | .not e => do negateTruth (← evaluate resolve r e)
  | .neg e => do
    let v ← evaluate resolve r e
    if v.isNull then return .null
    negate v
  | .binary .and lhs rhs => do
    let a ← truth .and (← evaluate resolve r lhs)
    if a = some false then return .boolean false
    let b ← truth .and (← evaluate resolve r rhs)
    return ofTruth (andTruth a b)
  | .binary .or lhs rhs => do
    let a ← truth .or (← evaluate resolve r lhs)
    if a = some true then return .boolean true
    let b ← truth .or (← evaluate resolve r rhs)
    return ofTruth (orTruth a b)
  | .binary (.comparison c) lhs rhs => do
    let a ← evaluate resolve r lhs
    let b ← evaluate resolve r rhs
    comparison c a b
  | .binary (.arithmetic op) lhs rhs => do
    let a ← evaluate resolve r lhs
    let b ← evaluate resolve r rhs
    if a.isNull || b.isNull then return .null
    arithmetic op a b
  | .call f args => do
    let (least, most) := f.arity
    if args.length < least ∨ most < args.length then
      failing (.arity f.name least most args.length)
    else
      let values ← evaluateAll resolve r args
      if values.any (·.isNull) then return .null
      callFunction f values

def evaluateAll (resolve : Shape → Option (Accessor α)) (r : Record α) :
    List Expr → Except Failure (List Value)
  | [] => .ok []
  | e :: es => do
    let v ← evaluate resolve r e
    return v :: (← evaluateAll resolve r es)

end

/-- Whether a filter keeps a record; null does not. -/
def evaluatePredicate (resolve : Shape → Option (Accessor α)) (e : Expr) (r : Record α) :
    Except Failure Bool := do
  match ← evaluate resolve r e with
  | .boolean b => .ok b
  | .null => .ok false
  | v => failing (.notBoolean e.toText v.toText)

end Edm.Expr
