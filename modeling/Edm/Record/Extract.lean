import Edm.Record

/-!
This module contains the conversion of field values to the types of the fields of typed records.
-/

namespace Edm

structure Scalar (τ : Type) where
  name : String
  /-- The value of a field that has none of its own. -/
  default : τ
  toValue : τ → Value
  ofField? : {α : Type} → FieldValue α → Option τ
  ofNull? : Option τ := none

namespace Scalar

def extract (s : Scalar τ) (v : FieldValue α) : Except Failure τ :=
  match v, s.ofNull? with
  | .null, some t => .ok t
  | v, _ =>
    match s.ofField? v with
    | some t => .ok t
    | none => .error (.invalidRecord (.notConvertible v.inspect s.name))

/-- A type that is converted from simple values only. -/
def ofSimple (name : String) (default : τ) (toValue : τ → Value) (of? : Value → Option τ) :
    Scalar τ where
  name
  default
  toValue
  ofField?
    | .simple v => of? v
    | _ => none

def boolean : Scalar Bool := ofSimple "bool" false .boolean Value.boolean?

def byte : Scalar UInt8 := ofSimple "u8" 0 .byte fun
  | .byte n => some n
  | _ => none

def int16 : Scalar Int16 := ofSimple "i16" 0 .int16 fun
  | .int16 n => some n
  | .byte n => some (.ofInt n.toNat)
  | _ => none

def int32 : Scalar Int32 := ofSimple "i32" 0 .int32 fun
  | .int32 n => some n
  | .int16 n => some (.ofInt n.toInt)
  | .byte n => some (.ofInt n.toNat)
  | _ => none

/-- Bytes are no source of long integers. -/
def int64 : Scalar Int64 := ofSimple "i64" 0 .int64 fun
  | .int64 n => some n
  | .int32 n => some (.ofInt n.toInt)
  | .int16 n => some (.ofInt n.toInt)
  | _ => none

def double : Scalar Float := ofSimple "f64" 0 .double fun
  | .double x => some x
  | .single x => some (Ieee.widen x)
  | _ => none

def decimal : Scalar Decimal := ofSimple "rust_decimal::decimal::Decimal" .zero .decimal fun
  | .decimal d => some d
  | .int32 n => some (.ofInt64 (.ofInt n.toInt))
  | _ => none

def dateTime : Scalar DateTime :=
  ofSimple "chrono::naive::datetime::NaiveDateTime" .epoch .dateTime fun
    | .dateTime t => some t
    | _ => none

def guid : Scalar Guid := ofSimple "uuid::Uuid" ⟨0⟩ .guid fun
  | .guid g => some g
  | _ => none

def binary : Scalar (List UInt8) := ofSimple "alloc::vec::Vec<u8>" [] .binary fun
  | .binary bytes => some bytes
  | _ => none

/-- Texts are converted from members of enumerations too. -/
def string : Scalar String where
  name := "alloc::string::String"
  default := ""
  toValue := .string
  ofField?
    | .simple (.string s) => some s
    | .enum member => some member
    | _ => none

/-- Any simple value; members of enumerations become texts. -/
def value : Scalar Value where
  name := "entiodata_codec::value::Value"
  default := .null
  toValue := id
  ofField?
    | .null => some .null
    | .simple v => some v
    | .enum member => some (.string member)
    | .record _ => none

def optional (s : Scalar τ) : Scalar (Option τ) where
  name := s.name
  default := none
  toValue
    | none => .null
    | some t => s.toValue t
  ofField? v := (s.ofField? v).map some
  ofNull? := some none

end Scalar

/-- The contents of a nested record of the given kind, or nothing for null. -/
def Kind.extract (k : Kind α τ) : FieldValue α → Except Failure (Option τ)
  | .null => .ok none
  | .record r =>
    match k.project? r.data with
    | some t => .ok (some t)
    | none => .error (.invalidRecord (.wrongRecord r.shape.label k.name))
  | v => .error (.invalidRecord (.notNested v.inspect))

end Edm
