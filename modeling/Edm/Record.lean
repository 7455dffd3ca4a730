import Edm.Failure

/-!
This module contains records that the service does not own, the values of their fields, and the
accessors through which all of their fields are read and written. A record carries the tag of its
shape; what else it holds is up to its accessor.
-/

namespace Edm

structure Shape where
  name : String
deriving DecidableEq, Repr

def Shape.label (s : Shape) : String := "shape:" ++ s.name

def Shape.inspect (s : Shape) : String := "ShapeId(" ++ Text.quoted s.name ++ ")"

structure Record (α : Type) where
  shape : Shape
  data : α

inductive FieldValue (α : Type) where
  | null
  | simple (v : Value)
  | enum (member : String)
  | record (r : Record α)

namespace FieldValue

variable {α : Type}

/-- A null value is no value. -/
def ofValue : Value → FieldValue α
  | .null => .null
  | v => .simple v

/-- The form of diagnostics; the contents of records are not shown. -/
def inspect : FieldValue α → String
  | .null => "Null"
  | .simple v => "Simple(" ++ v.inspect ++ ")"
  | .enum member => "Enum(" ++ Text.quoted member ++ ")"
  | .record r => "Record(Record \x7b shape: " ++ r.shape.inspect ++ " \x7d)"

end FieldValue

inductive FieldType where
  | simple (t : SimpleType)
  | enumeration (name : String)
  | record (shape : Shape)
deriving DecidableEq, Repr

structure Field where
  name : String
  type : FieldType
  collection : Bool
  nullable : Bool
deriving DecidableEq, Repr

structure Accessor (α : Type) where
  fields : List Field
  create : Except Failure α
  get : α → String → Except Failure (FieldValue α)
  set : α → String → FieldValue α → Except Failure α
  /-- Read a collection field, which may itself be null. -/
  getAll : α → String → Except Failure (Option (List (FieldValue α)))
  setAll : α → String → List (FieldValue α) → Except Failure α

namespace Accessor

variable {α : Type}

def field? (a : Accessor α) (name : String) : Option Field :=
  a.fields.find? fun f => f.name == name

def fieldType? (a : Accessor α) (name : String) : Option FieldType :=
  (a.field? name).bind fun f => if f.collection then none else some f.type

def itemType? (a : Accessor α) (name : String) : Option FieldType :=
  (a.field? name).bind fun f => if f.collection then some f.type else none

end Accessor

structure Kind (α τ : Type) where
  name : String
  inject : τ → α
  project? : α → Option τ
  project?_inject : ∀ t, project? (inject t) = some t := by intro t; rfl

/-- A record type among several, which are together within the contents of all records. -/
def Kind.within {α β τ : Type} (outer : Kind α β) (inner : Kind β τ) : Kind α τ where
  name := outer.name ++ inner.name
  inject t := outer.inject (inner.inject t)
  project? data := (outer.project? data).bind inner.project?
  project?_inject t := by simp [outer.project?_inject, inner.project?_inject]

end Edm
