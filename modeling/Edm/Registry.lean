import Edm.Accessor.Derived
import Edm.Entity

/-!
This module contains the registrations of a service: the sets of records that are shown as entities
and the shapes of records that are shown as complex values. A set is identified by its name and by
the shape of its records, and a complex type by the shape of its records.
-/

namespace Edm

inductive Source (α : Type) where
  | entity (e : Entity α)
  | complex (values : List NamedValue)

def Source.values : Source α → List NamedValue
  | .entity e => e.values
  | .complex values => values

/-- When a hook is called: before any field of a new record is filled, or after all of them are. -/
inductive Stage where
  | before
  | after
deriving DecidableEq, Repr

structure Hooks (α : Type) where
  label : String
  hook? : Stage → Option (Source α → α → Except Failure α)

structure HookCall (α : Type) where
  label : String
  stage : Stage
  source : Source α
  data : α

structure SetEntry (α : Type) where
  name : String
  typeName : String
  shape : Shape
  accessor : Accessor α
  keys : List String
  records : List (Record α)
  hooks? : Option (Hooks α)

structure ComplexEntry (α : Type) where
  typeName : String
  shape : Shape
  accessor : Accessor α
  hooks? : Option (Hooks α)

variable {α : Type}

namespace SetEntry

def keyedBy (type : SimpleType) (key : α → Except Failure Value) (e : SetEntry α) : SetEntry α :=
  { e with accessor := e.accessor.withComputedKey type key, keys := [Accessor.entityId] }

def mapAccessor (f : Accessor α → Accessor α) (e : SetEntry α) : SetEntry α :=
  { e with accessor := f e.accessor }

def inspect (e : SetEntry α) : String :=
  "EntitySetRegistration \x7b set_name: " ++ Text.quoted e.name ++ ", type_name: "
    ++ Text.quoted e.typeName ++ ", shape: " ++ e.shape.inspect ++ ", keys: ["
    ++ ", ".intercalate (e.keys.map Text.quoted) ++ "], hooks: "
    ++ (if e.hooks?.isSome then "true" else "false") ++ ", .. \x7d"

end SetEntry

namespace ComplexEntry

def mapAccessor (f : Accessor α → Accessor α) (e : ComplexEntry α) : ComplexEntry α :=
  { e with accessor := f e.accessor }

def inspect (e : ComplexEntry α) : String :=
  "ComplexTypeRegistration \x7b type_name: " ++ Text.quoted e.typeName ++ ", shape: "
    ++ e.shape.inspect ++ ", hooks: " ++ (if e.hooks?.isSome then "true" else "false")
    ++ ", .. \x7d"

end ComplexEntry

structure Registry (α : Type) where
  sets : List (SetEntry α) := []
  complexTypes : List (ComplexEntry α) := []

namespace Registry

def set? (r : Registry α) (name : String) : Option (SetEntry α) :=
  r.sets.find? fun e => e.name == name

def setOfShape? (r : Registry α) (shape : Shape) : Option (SetEntry α) :=
  r.sets.find? fun e => e.shape == shape

def complexOfShape? (r : Registry α) (shape : Shape) : Option (ComplexEntry α) :=
  r.complexTypes.find? fun e => e.shape == shape

/-- The accessor for records of a shape; sets come before complex types. -/
def accessor? (r : Registry α) (shape : Shape) : Option (Accessor α) :=
  match r.setOfShape? shape with
  | some e => some e.accessor
  | none => (r.complexOfShape? shape).map (·.accessor)

/-- Add a set, unless its name or its shape is taken. -/
def addSet? (r : Registry α) (e : SetEntry α) : Option (Registry α) :=
  if r.sets.any fun o => o.name == e.name || o.shape == e.shape then none
  else some { r with sets := r.sets ++ [e] }

def addComplexType (r : Registry α) (e : ComplexEntry α) : Registry α :=
  if r.complexTypes.any fun o => o.shape == e.shape then
    { r with complexTypes := r.complexTypes.map fun o => if o.shape == e.shape then e else o }
  else { r with complexTypes := r.complexTypes ++ [e] }

def setRecords (r : Registry α) (name : String) (records : List (Record α)) : Registry α :=
  { r with sets := r.sets.map fun e => if e.name == name then { e with records } else e }

def isEmpty (r : Registry α) : Bool := r.sets.isEmpty && r.complexTypes.isEmpty

end Registry

end Edm
