import Edm.Expr
import Edm.Failure
import Edm.Text.CaseMap
import Edm.Text.Search

/-!
This module contains the operators and functions of expressions on values that are not null.
-/

namespace Edm

def Value.typeLabel (v : Value) : String :=
  match v.simpleType? with
  | some t => t.name
  | none => "null"

namespace Expr

def failing (cause : BadExpression) : Except Failure α := .error (.evaluation cause)

def compareValues (a b : Value) : Except Failure Ordering :=
  match a.order? b with
  | some ord => .ok ord
  | none => failing (.incomparable a.typeLabel b.typeLabel)

def holds (c : Comparison) (ord : Ordering) : Bool :=
  match c with
  | .eq => ord == .eq
  | .ne => ord != .eq
  | .lt => ord == .lt
  | .le => ord != .gt
  | .gt => ord == .gt
  | .ge => ord != .lt

def truth (op : BinaryOp) : Value → Except Failure (Option Bool)
  | .null => .ok none
  | .boolean b => .ok (some b)
  | v => failing (.notTruth op.keyword v.typeLabel)

def ofTruth : Option Bool → Value
  | none => .null
  | some b => .boolean b

def andTruth : Option Bool → Option Bool → Option Bool
  | some false, _ => some false
  | _, some false => some false
  | some true, some true => some true
  | _, _ => none

def orTruth : Option Bool → Option Bool → Option Bool
  | some true, _ => some true
  | _, some true => some true
  | some false, some false => some false
  | _, _ => none

def number (v : Value) : Except Failure Numeric :=
  match v.numeric? with
  | some n => .ok n
  | none => failing (.notNumeric v.typeLabel)

def isNarrow : Value → Bool
  | .byte _ | .sbyte _ | .int16 _ | .int32 _ => true
  | _ => false

/-- Compute with two numbers; the result is narrow if both operands are. -/
def arithmetic (op : ArithmeticOp) (a b : Value) : Except Failure Value := do
  let m ← number a
  let n ← number b
  match Numeric.compute? op m n with
  | some r => .ok (r.toValue (isNarrow a && isNarrow b))
  | none => failing (.arithmetic a.toText op.keyword b.toText)

def negate (v : Value) : Except Failure Value := do
  match (← number v).neg? with
  | some r => .ok (r.toValue (isNarrow v))
  | none => failing (.notNegatable v.toText)

def negateTruth : Value → Except Failure Value
  | .null => .ok .null
  | .boolean b => .ok (.boolean !b)
  | v => failing (.negated v.toText)

def text (f : Builtin) (v : Value) : Except Failure (List Char) :=
  match v with
  | .string s => .ok s.toList
  | v => failing (.notText f.name v.typeLabel)

/-- An argument that has to be a number of characters. -/
def index (f : Builtin) (v : Value) : Except Failure Nat :=
  match v.integer? with
  | some n => if 0 ≤ n.toInt then .ok n.toInt.toNat else failing (.notIndex f.name v.toText)
  | none => failing (.notIndex f.name v.toText)

def ofCount (n : Nat) : Value := Numeric.integerValue true (.ofInt n)

def ofText (cs : List Char) : Value := .string (.ofList cs)

/-- The date, if there is one, and the time of day that the clocks show. -/
def calendarParts (f : Builtin) : Value → Except Failure (Option Date × TimeOfDay)
  | .dateTime t => .ok (some t.date, t.time)
  | .dateTimeOffset t =>
    if t.atOffset.date.isInRange then .ok (some t.atOffset.date, t.atOffset.time)
    else .error (.panicked .localTimeOutOfRange)
  | .time t => .ok (none, t)
  | v => failing (.notCalendar f.name v.typeLabel)

def datePart (f : Builtin) (part : Date → Int) (v : Value) : Except Failure Value := do
  match ← calendarParts f v with
  | (some date, _) => .ok (.int32 (.ofInt (part date)))
  | (none, _) => failing (.noDate f.name)

def timePart (f : Builtin) (part : TimeOfDay → Nat) (v : Value) : Except Failure Value := do
  let (_, time) ← calendarParts f v
  return .int32 (.ofInt (part time))

/-- Round to an integer of the same type; integers stay as they are. -/
def rounded (f : Builtin) (decimal : Decimal → Decimal) (float : Ieee.Datum → Ieee.Datum) :
    Value → Except Failure Value
  | .decimal d => .ok (.decimal (decimal d))
  | .double x => .ok (.double (Ieee.ofDatum (float (Ieee.datum x))))
  | .single x => .ok (.single (Ieee.ofDatum32 (float (Ieee.datum32 x))))
  | v =>
    match v.integer? with
    | some _ => .ok v
    | none => failing (.notNumber f.name v.typeLabel)

/-- Call a function with as many arguments as it takes, none of them null. -/
def callFunction (f : Builtin) (args : List Value) : Except Failure Value := do
  match f, args with
  | .substringof, [needle, s] =>
    let s ← text f s
    let needle ← text f needle
    return .boolean (Text.contains needle s)
  | .startswith, [s, start] =>
    let s ← text f s
    let start ← text f start
    return .boolean (start.isPrefixOf s)
  | .endswith, [s, ending] =>
    let s ← text f s
    let ending ← text f ending
    return .boolean (ending.isSuffixOf s)
  | .length, [s] => return ofCount (← text f s).length
  | .indexof, [s, needle] =>
    let s ← text f s
    let needle ← text f needle
    match Text.indexOf? needle s with
    | some n => return ofCount n
    | none => return .int32 (-1)
  | .substring, [s, start] =>
    let s ← text f s
    return ofText (s.drop (← index f start))
  | .substring, [s, start, count] =>
    let s ← text f s
    let start ← index f start
    return ofText ((s.drop start).take (← index f count))
  | .tolower, [s] => return ofText (Text.toLower (← text f s))
  | .toupper, [s] => return ofText (Text.toUpper (← text f s))
  | .trim, [s] => return ofText (Text.trim (← text f s))
  | .concat, [s, t] =>
    let s ← text f s
    return ofText (s ++ (← text f t))
  | .replace, [s, needle, other] =>
    let s ← text f s
    let needle ← text f needle
    return ofText (Text.replace needle (← text f other) s)
  | .year, [v] => datePart f (·.year) v
  | .month, [v] => datePart f (·.month) v
  | .day, [v] => datePart f (·.day) v
  | .hour, [v] => timePart f (·.hour) v
  | .minute, [v] => timePart f (·.minute) v
  | .second, [v] => timePart f (·.second) v
  | .round, [v] => rounded f Decimal.round Ieee.Datum.round v
  | .floor, [v] => rounded f Decimal.floor Ieee.Datum.floor v
  | .ceiling, [v] => rounded f Decimal.ceil Ieee.Datum.ceil v
  | f, args => failing (.arity f.name f.arity.1 f.arity.2 args.length)

end Expr

end Edm
