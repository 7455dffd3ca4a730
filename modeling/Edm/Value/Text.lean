import Edm.Calendar.Text
import Edm.Decimal.Text
import Edm.Ieee.Text
import Edm.Json
import Edm.Text.Quoted
import Edm.Value

/-!
This module contains the texts of values: the plain one, the one of diagnostics and the JSON form.
-/

namespace Edm

namespace Ieee

/--
Floats in diagnostics always have a point or an exponent, and an exponent only below 10 ^ -4 and
from 10 ^ 16 on.
-/
def Format.inspect (f : Format) : Datum → String
  | .finite negative m q =>
    let body :=
      if m = 0 then "0.0"
      else
        let d := f.shortest .up m q
        let ds := decimalDigits d.digits
        let e : Int := d.exponent + (ds.length - 1 : Nat)
        if -4 ≤ e ∧ e < 16 then
          if 0 ≤ d.exponent then d.positional ++ ".0" else d.positional
        else
          let mantissa := match ds with
            | [] => []
            | [c] => [c]
            | c :: rest => c :: '.' :: rest
          .ofList mantissa ++ "e" ++ toString e
    if negative then "-" ++ body else body
  | d => f.display d

end Ieee

namespace Value

/-- The text of a value, without any mark of its type. -/
def toText : Value → String
  | .null => "null"
  | .boolean b => if b then "true" else "false"
  | .byte n => toString n.toNat
  | .sbyte n => toString n.toInt
  | .int16 n => toString n.toInt
  | .int32 n => toString n.toInt
  | .int64 n => toString n.toInt
  | .single x => Ieee.display32 x
  | .double x => Ieee.display x
  | .decimal d => d.toText
  | .string s => s
  | .dateTime t => t.toText
  | .dateTimeOffset t => t.toText
  | .time t => t.toText
  | .guid g => g.toText
  | .binary bytes => s!"{bytes.length} bytes"

def inspectPayload : Value → String
  | .single x => Ieee.binary32.inspect (Ieee.datum32 x)
  | .double x => Ieee.binary64.inspect (Ieee.datum x)
  | .string s => Text.quoted s
  | .binary bytes => "[" ++ ", ".intercalate (bytes.map fun b => toString b.toNat) ++ "]"
  | v => v.toText

def inspect (v : Value) : String :=
  match v.simpleType? with
  | none => "Null"
  | some t => t.shortName ++ "(" ++ v.inspectPayload ++ ")"

def toJson : Value → Json
  | .null => .null
  | .boolean b => .bool b
  | .byte n => .ofNat n.toNat
  | .sbyte n => .ofInt n.toInt
  | .int16 n => .ofInt n.toInt
  | .int32 n => .ofInt n.toInt
  | .int64 n => .ofInt n.toInt
  | .single x => .number (Ieee.json32 x)
  | .double x => .number (Ieee.json x)
  | .dateTimeOffset t => .string t.toZuluText
  | .binary bytes => .array (bytes.map fun b => .ofNat b.toNat)
  | v => .string v.toText

end Value

end Edm
