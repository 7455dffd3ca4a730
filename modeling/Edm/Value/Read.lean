import Edm.Literal.Decode
import Edm.Value.Text

/-!
This module contains the reading of the plain texts of values, whose types are known.
-/

namespace Edm

/-- The simple type with the given name, which may stand without the namespace. -/
def SimpleType.ofName? (name : String) : Option SimpleType :=
  all.find? fun t => t.name == name || t.shortName == name

namespace Value

def boundedInt? (low high : Int) (cs : List Char) : Option Int := do
  let n ← Literal.readInt64? cs
  if low ≤ n.toInt ∧ n.toInt ≤ high then some n.toInt else none

def booleanOf? (text : String) : Option Bool :=
  if text = "true" then some true else if text = "false" then some false else none

def ofText? (t : SimpleType) (text : String) : Option Value :=
  let cs := text.toList
  match t with
  | .boolean => (booleanOf? text).map .boolean
  | .byte => (boundedInt? 0 255 cs).map fun n => .byte (.ofInt n)
  | .sbyte => (boundedInt? (-128) 127 cs).map fun n => .sbyte (.ofInt n)
  | .int16 => (boundedInt? (-32768) 32767 cs).map fun n => .int16 (.ofInt n)
  | .int32 => (boundedInt? (-2147483648) 2147483647 cs).map fun n => .int32 (.ofInt n)
  | .int64 => (Literal.readInt64? cs).map .int64
  | .single => (Ieee.read32? cs).map .single
  | .double => (Ieee.read? cs).map .double
  | .decimal => ((Decimal.read? cs).or (Decimal.readScientific? cs)).map .decimal
  | .string => some (.string text)
  | .dateTime => (Calendar.readDateTime cs).toOption.map .dateTime
  | .dateTimeOffset => (Calendar.readOffsetDateTime cs).toOption.map .dateTimeOffset
  | .time => (Calendar.readTime cs).toOption.map .time
  | .guid => (Guid.read cs).toOption.map .guid
  | .binary => (Literal.hexPairs? cs).map .binary

end Value

end Edm
