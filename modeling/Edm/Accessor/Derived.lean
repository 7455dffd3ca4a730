import Edm.Record

/-!
This module contains accessors that are made from other accessors: one that shows enumerations as
texts, and one that adds a computed key.
-/

namespace Edm

variable {α : Type}

namespace FieldValue

def enumToText : FieldValue α → FieldValue α
  | .enum member => .simple (.string member)
  | v => v

def textToEnum : FieldValue α → FieldValue α
  | .simple (.string member) => .enum member
  | v => v

end FieldValue

def FieldType.isEnumeration : FieldType → Bool
  | .enumeration _ => true
  | _ => false

namespace Accessor

def enumsAsText (inner : Accessor α) : Accessor α :=
  let isEnum (name : String) : Bool := (inner.field? name).any fun f => f.type.isEnumeration
  { fields := inner.fields.map fun f =>
      if f.type.isEnumeration then { f with type := .simple .string } else f
    create := inner.create
    get := fun data name => return (← inner.get data name).enumToText
    set := fun data name v => inner.set data name (if isEnum name then v.textToEnum else v)
    getAll := fun data name => return (← inner.getAll data name).map (·.map .enumToText)
    setAll := fun data name vs =>
      inner.setAll data name (if isEnum name then vs.map .textToEnum else vs) }

def entityId : String := "EntityId"

/--
Add a key in front of the other fields that is computed from the record. Writing it has no effect.
-/
def withComputedKey (type : SimpleType) (key : α → Except Failure Value) (inner : Accessor α) :
    Accessor α where
  fields := ⟨entityId, .simple type, false, false⟩ :: inner.fields
  create := inner.create
  get data name :=
    if name = entityId then (key data).map .ofValue else inner.get data name
  set data name v := if name = entityId then .ok data else inner.set data name v
  getAll := inner.getAll
  setAll := inner.setAll

/-- A key that is computed from records of one type only. -/
def keyOf (k : Kind α τ) (key : τ → Value) (data : α) : Except Failure Value :=
  match k.project? data with
  | some t => .ok (key t)
  | none => .error (.invalidRecord (.foreignKey k.name))

end Accessor

end Edm
