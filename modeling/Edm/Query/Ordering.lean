import Edm.Expr.Eval
import Edm.Query.Sorter

/-!
This module contains the ordering of records by keys, each of which is ascending or descending. It
keeps records with equal keys in their order. It fails if keys are compared that have no order, but
only once the sort has come to its end.
-/

namespace Edm

def Direction.apply : Direction → Ordering → Ordering
  | .ascending, o => o
  | .descending, o => o.swap

/-- The order of two values of a key; null comes first. -/
def compareKeys (a b : Value) : Except Failure Ordering :=
  match a.isNull, b.isNull with
  | true, true => .ok .eq
  | true, false => .ok .lt
  | false, true => .ok .gt
  | false, false => Expr.compareValues a b

/--
The order of the values of several keys, which is that of the first one in which they differ. Values
without an order count as equal, and the failure of the first ones is told.
-/
def compareAllKeys : List Direction → List Value → List Value → Option Failure × Ordering
  | d :: ds, a :: as, b :: bs =>
    match compareKeys a b with
    | .ok o =>
      match d.apply o with
      | .eq => compareAllKeys ds as bs
      | o => (none, o)
    | .error failure => (some failure, (compareAllKeys ds as bs).2)
  | _, _, _ => (none, .eq)

def keyValues (resolve : Shape → Option (Accessor α)) (keys : List OrderKey) (r : Record α) :
    Except Failure (List Value) :=
  keys.mapM fun key => key.expr.evaluate resolve r

abbrev Keyed (α : Type) := List Value × Record α

def compareKeyed (keys : List OrderKey) (a b : Keyed α) : Option Failure × Ordering :=
  compareAllKeys (keys.map (·.direction)) a.1 b.1

/-- The records in order, if the sort has come to its end and no comparison has failed. -/
def orderedRecords : Option Failure × Option (List (Keyed α)) → Except Failure (List (Record α))
  | (_, none) => .error (.panicked .inconsistentOrder)
  | (some failure, some _) => .error failure
  | (none, some sorted) => .ok (sorted.map (·.2))

def orderRecordsBy (sort : List (Keyed α) → Sorter (Keyed α) (List (Keyed α)))
    (resolve : Shape → Option (Accessor α)) (keys : List OrderKey) (rs : List (Record α)) :
    Except Failure (List (Record α)) := do
  if keys.isEmpty then return rs
  let keyed ← rs.mapM fun r => return (← keyValues resolve keys r, r)
  orderedRecords ((sort keyed).run (compareKeyed keys) none)

def orderRecords (resolve : Shape → Option (Accessor α)) (keys : List OrderKey)
    (rs : List (Record α)) : Except Failure (List (Record α)) :=
  orderRecordsBy Sorter.sort resolve keys rs

end Edm
