import Edm.Calendar
import Edm.Decimal.Convert
import Edm.Guid

/-!
This module contains the simple types of the entity data model, the values of these types, and the
order of values. Numbers of different types are compared as numbers: integers and decimals exactly,
and everything as doubles when one of the two is a float.
-/

namespace Edm

inductive SimpleType where
  | binary
  | boolean
  | byte
  | sbyte
  | dateTime
  | dateTimeOffset
  | decimal
  | double
  | single
  | guid
  | int16
  | int32
  | int64
  | string
  | time
deriving DecidableEq, Repr

namespace SimpleType

def all : List SimpleType :=
  [.binary, .boolean, .byte, .sbyte, .dateTime, .dateTimeOffset, .decimal, .double, .single, .guid,
    .int16, .int32, .int64, .string, .time]

def shortName : SimpleType → String
  | .binary => "Binary"
  | .boolean => "Boolean"
  | .byte => "Byte"
  | .sbyte => "SByte"
  | .dateTime => "DateTime"
  | .dateTimeOffset => "DateTimeOffset"
  | .decimal => "Decimal"
  | .double => "Double"
  | .single => "Single"
  | .guid => "Guid"
  | .int16 => "Int16"
  | .int32 => "Int32"
  | .int64 => "Int64"
  | .string => "String"
  | .time => "Time"

def name (t : SimpleType) : String := "Edm." ++ t.shortName

def isNumeric : SimpleType → Bool
  | .byte | .sbyte | .int16 | .int32 | .int64 | .decimal | .double | .single => true
  | _ => false

end SimpleType

/-- A value of a simple type, or null, which has no type. -/
inductive Value where
  | null
  | boolean (b : Bool)
  | byte (n : UInt8)
  | sbyte (n : Int8)
  | int16 (n : Int16)
  | int32 (n : Int32)
  | int64 (n : Int64)
  | single (x : Float32)
  | double (x : Float)
  | decimal (d : Decimal)
  | string (s : String)
  | dateTime (t : DateTime)
  | dateTimeOffset (t : OffsetDateTime)
  | time (t : TimeOfDay)
  | guid (g : Guid)
  | binary (bytes : List UInt8)
deriving Inhabited

/-- A number in the family in which it is computed with. -/
inductive Numeric where
  | integer (n : Int64)
  | decimal (d : Decimal)
  | float (x : Float)
deriving Inhabited

namespace Numeric

def toFloat : Numeric → Float
  | .integer n => Ieee.ofInt n.toInt
  | .decimal d => d.toFloat
  | .float x => x

def promote : Numeric → Numeric → Numeric × Numeric
  | .float x, b => (.float x, .float b.toFloat)
  | a, .float y => (.float a.toFloat, .float y)
  | .decimal d, .integer n => (.decimal d, .decimal (.ofInt64 n))
  | .integer n, .decimal d => (.decimal (.ofInt64 n), .decimal d)
  | a, b => (a, b)

/-- The order of two numbers; NaN is equal to itself and comes after all other numbers. -/
def order (a b : Numeric) : Ordering :=
  match promote a b with
  | (.integer m, .integer n) => compare m.toInt n.toInt
  | (.decimal c, .decimal d) => c.order d
  | (a, b) => Ieee.order a.toFloat b.toFloat

end Numeric

namespace Value

def simpleType? : Value → Option SimpleType
  | .null => none
  | .boolean _ => some .boolean
  | .byte _ => some .byte
  | .sbyte _ => some .sbyte
  | .int16 _ => some .int16
  | .int32 _ => some .int32
  | .int64 _ => some .int64
  | .single _ => some .single
  | .double _ => some .double
  | .decimal _ => some .decimal
  | .string _ => some .string
  | .dateTime _ => some .dateTime
  | .dateTimeOffset _ => some .dateTimeOffset
  | .time _ => some .time
  | .guid _ => some .guid
  | .binary _ => some .binary

def isNull : Value → Bool
  | .null => true
  | _ => false

def boolean? : Value → Option Bool
  | .boolean b => some b
  | _ => none

def string? : Value → Option String
  | .string s => some s
  | _ => none

def integer? : Value → Option Int64
  | .byte n => some (.ofInt n.toNat)
  | .sbyte n => some (.ofInt n.toInt)
  | .int16 n => some (.ofInt n.toInt)
  | .int32 n => some (.ofInt n.toInt)
  | .int64 n => some n
  | _ => none

def numeric? : Value → Option Numeric
  | .single x => some (.float (Ieee.widen x))
  | .double x => some (.float x)
  | .decimal d => some (.decimal d)
  | v => v.integer?.map .integer

/--
The order of two values, if they can be compared. Null comes first; a point in time without an
offset is compared as universal time with one that has an offset.
-/
def order? : Value → Value → Option Ordering
  | .null, .null => some .eq
  | .null, _ => some .lt
  | _, .null => some .gt
  | .boolean a, .boolean b => some (compare a b)
  | .string a, .string b => some (compare a b)
  | .dateTime a, .dateTime b => some (a.order b)
  | .dateTimeOffset a, .dateTimeOffset b => some (a.utc.order b.utc)
  | .dateTime a, .dateTimeOffset b => some (a.order b.utc)
  | .dateTimeOffset a, .dateTime b => some (a.utc.order b)
  | .time a, .time b => some (a.order b)
  | .guid a, .guid b => some (a.order b)
  | .binary a, .binary b => some (compare a b)
  | a, b =>
    match a.numeric?, b.numeric? with
    | some m, some n => some (m.order n)
    | _, _ => none

def looselyEquals (a b : Value) : Bool := a.order? b == some .eq

/-- Equality of values of the same type; decimals and floats are equal as numbers. -/
def equals : Value → Value → Bool
  | .null, .null => true
  | .boolean a, .boolean b => a == b
  | .byte a, .byte b => a == b
  | .sbyte a, .sbyte b => a == b
  | .int16 a, .int16 b => a == b
  | .int32 a, .int32 b => a == b
  | .int64 a, .int64 b => a == b
  | .single a, .single b => a == b
  | .double a, .double b => a == b
  | .decimal a, .decimal b => a.order b == .eq
  | .string a, .string b => a == b
  | .dateTime a, .dateTime b => a == b
  | .dateTimeOffset a, .dateTimeOffset b => a.utc == b.utc
  | .time a, .time b => a == b
  | .guid a, .guid b => a == b
  | .binary a, .binary b => a == b
  | _, _ => false

end Value

end Edm
