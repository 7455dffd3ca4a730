import Edm.Config
import Edm.Registry

/-!
This module contains the model that follows from registrations. A field whose records belong to a
set is a navigation; a field whose records are complex values, or whose values are simple, is a
property; all other fields are left out, and so is what would make a complex type contain itself.
-/

namespace Edm.Registry

variable {α : Type}

abbrev MadeTypes := List (Shape × ComplexType)

def otherShapes (r : Registry α) (pending : List Shape) : List Shape :=
  (r.complexTypes.map (·.shape)).filter fun shape => !pending.contains shape

theorem otherShapes_cons (r : Registry α) (pending : List Shape) (shape : Shape) :
    r.otherShapes (shape :: pending) = (r.otherShapes pending).filter (· != shape) := by
  simp only [otherShapes, List.filter_filter]
  congr 1
  funext other
  by_cases h : other = shape <;> simp [h]

theorem length_otherShapes_cons_lt {r : Registry α} {pending : List Shape} {shape : Shape}
    {e : ComplexEntry α} (he : r.complexOfShape? shape = some e) (hp : shape ∉ pending) :
    (r.otherShapes (shape :: pending)).length < (r.otherShapes pending).length := by
  have hmem : e ∈ r.complexTypes := List.mem_of_find?_eq_some he
  have hshape : e.shape = shape := by simpa using List.find?_some he
  rw [otherShapes_cons, List.length_filter_lt_length_iff_exists]
  refine ⟨shape, ?_, by simp⟩
  simp only [otherShapes, List.mem_filter, List.mem_map]
  exact ⟨⟨e, hmem, hshape⟩, by simpa using hp⟩

mutual

/--
The complex type for records of a shape, if they are complex values. Types that are being made are
in `pending`; they are not there yet for what they contain.
-/
def complexType (r : Registry α) (namespace_ : String) (pending : List Shape) (shape : Shape)
    (made : MadeTypes) : Option ComplexType × MadeTypes :=
  match made.lookup shape with
  | some t => (some t, made)
  | none =>
    match _ : r.complexOfShape? shape with
    | none => (none, made)
    | some e =>
      if _ : shape ∈ pending then (none, made)
      else
        let (properties, made) :=
          propertiesOf r namespace_ (shape :: pending) e.accessor.fields made
        let t : ComplexType := ⟨namespace_, e.typeName, properties⟩
        (some t, (shape, t) :: made)
termination_by ((r.otherShapes pending).length, 0, 0)
decreasing_by
  exact Prod.Lex.left _ _ (length_otherShapes_cons_lt (by assumption) (by assumption))

def propertyOf (r : Registry α) (namespace_ : String) (pending : List Shape) (f : Field)
    (made : MadeTypes) : Option Property × MadeTypes :=
  let (item, made) : Option ItemType × MadeTypes :=
    match f.type with
    | .simple t => (some (.simple t), made)
    | .enumeration _ => (none, made)
    | .record shape =>
      let (t, made) := complexType r namespace_ pending shape made
      (t.map .complex, made)
  let property (item : ItemType) : Property :=
    ⟨f.name, if f.collection then .collection .list item else .single item, f.nullable⟩
  (item.map property, made)
termination_by ((r.otherShapes pending).length, 1, 0)

def propertiesOf (r : Registry α) (namespace_ : String) (pending : List Shape)
    (fields : List Field) (made : MadeTypes) : List Property × MadeTypes :=
  match fields with
  | [] => ([], made)
  | f :: fields =>
    let (property, made) := propertyOf r namespace_ pending f made
    let (properties, made) := propertiesOf r namespace_ pending fields made
    (property.toList ++ properties, made)
termination_by ((r.otherShapes pending).length, 2, fields.length)

end

/-- The navigation for a field, if its records belong to a set. -/
def navigation? (r : Registry α) (f : Field) : Option Navigation :=
  match f.type with
  | .record shape =>
    (r.setOfShape? shape).map fun e =>
      ⟨f.name, if f.collection then .many else .zeroOrOne, e.typeName⟩
  | _ => none

/-- Key properties cannot be null. -/
def Property.asKeyOf (keys : List String) (p : Property) : Property :=
  if keys.contains p.name then { p with nullable := false } else p

def entityType (r : Registry α) (namespace_ : String) (e : SetEntry α) (made : MadeTypes) :
    Except Failure (EntityType × MadeTypes) := do
  let fields := e.accessor.fields
  let (properties, made) := propertiesOf r namespace_ []
    (fields.filter fun f => (r.navigation? f).isNone) made
  let t ← EntityType.create namespace_ e.typeName e.keys
    (properties.map (Property.asKeyOf e.keys)) (fields.filterMap r.navigation?)
  return (t, made)

def entitySets (r : Registry α) (namespace_ : String) :
    List (SetEntry α) → MadeTypes → Except Failure (List EntitySet × MadeTypes)
  | [], made => .ok ([], made)
  | e :: es, made => do
    let (t, made) ← r.entityType namespace_ e made
    let (sets, made) ← r.entitySets namespace_ es made
    return (⟨e.name, t⟩ :: sets, made)

def complexTypesOf (r : Registry α) (namespace_ : String) :
    List (ComplexEntry α) → MadeTypes → List ComplexType
  | [], _ => []
  | e :: es, made =>
    let (t, made) := r.complexType namespace_ [] e.shape made
    t.toList ++ r.complexTypesOf namespace_ es made

def generate (r : Registry α) (config : Config) : Except Failure Model := do
  let (sets, made) ← r.entitySets config.namespace_ r.sets []
  Model.create config.namespace_ config.containerName sets
    (r.complexTypesOf config.namespace_ r.complexTypes made)

end Edm.Registry
