import Edm.Query.Selection
import Edm.Snapshot

/-!
This module contains the way from records to entities. Navigations are followed where they are
expanded, and everything that is not selected is left out.
-/

namespace Edm

variable {α : Type}

namespace FieldValue

def simpleValue (name : String) : FieldValue α → Except Failure Value
  | .null => .ok .null
  | .simple v => .ok v
  | .enum member => .ok (.string member)
  | .record _ => .error (.invalidRecord (.notSimple name))

/-- The value of a key field of a set, which cannot be null. -/
def keyValue (name set : String) : FieldValue α → Except Failure Value
  | .null => .error (.invalidKey (.nullOf name set))
  | .simple v => .ok v
  | .enum member => .ok (.string member)
  | .record _ => .error (.invalidKey (.notSimple name set))

/-- The record at the far end of a navigation, if there is one. -/
def related (name : String) : FieldValue α → Except Failure (Option (Record α))
  | .null => .ok none
  | .record r => .ok (some r)
  | v => .error (.invalidRecord (.notEntity name v.inspect))

end FieldValue

def Accessor.related (a : Accessor α) (data : α) (n : Navigation) :
    Except Failure (List (Record α)) := do
  let values ←
    if n.multiplicity.isMany then (·.getD []) <$> a.getAll data n.name
    else (fun v => [v]) <$> a.get data n.name
  return (← values.mapM (FieldValue.related n.name)).filterMap id

namespace Snapshot

def key (set : EntitySet) (a : Accessor α) (data : α) : Except Failure Key := do
  let values ← set.type.keys.mapM fun name => do (← a.get data name).keyValue name set.name
  Key.create set.type.keys values

def nestingLimit : Nat := 1000000

def showsNull (s : Snapshot α) : Bool := s.config.includeNullProperties

mutual

/--
The values of a complex value, up to the given depth of nesting. There are none if records of its
shape are not shown.
-/
def complexValues (s : Snapshot α) (depth : Nat) (r : Record α) :
    Except Failure (Option (List NamedValue)) :=
  match depth with
  | 0 => .error (.invalidRecord .tooDeep)
  | depth + 1 =>
    match s.registry.complexOfShape? r.shape with
    | none => .ok none
    | some e =>
      match s.model.complexType? e.typeName with
      | none => .ok none
      | some t => do
        let values ← t.properties.mapM fun p => namedValue s depth e.accessor r.data p
        return some (values.filterMap id)
termination_by (depth, 0, 0)

/-- An item of a collection, unless it is not shown. -/
def collectionItem (s : Snapshot α) (depth : Nat) (name : String) (type : ItemType)
    (v : FieldValue α) : Except Failure (Option Item) :=
  match type, v with
  | .simple _, v => do return some (.simple (← v.simpleValue name))
  | .complex _, .record r => do return (← complexValues s depth r).map .complex
  | .complex _, .null => .error (.invalidRecord (.nullItem name))
  | .complex _, v => .error (.invalidRecord (.notComplexItem name v.inspect))
termination_by (depth, 1, 0)

/-- The items of a collection, unless one of them is not shown. -/
def collectionItems (s : Snapshot α) (depth : Nat) (name : String) (type : ItemType)
    (vs : List (FieldValue α)) : Except Failure (Option (List Item)) :=
  match vs with
  | [] => .ok (some [])
  | v :: vs => do
    match ← collectionItem s depth name type v with
    | none => return none
    | some item => return (← collectionItems s depth name type vs).map (item :: ·)
termination_by (depth, 2, vs.length)

/-- The value of a property of a record, if it is shown. -/
def namedValue (s : Snapshot α) (depth : Nat) (a : Accessor α) (data : α) (p : Property) :
    Except Failure (Option NamedValue) :=
  let shown (content : Content) : Option NamedValue := some ⟨p.name, p.type, content⟩
  match p.type with
  | .single (.simple _) => do
    let v ← (← a.get data p.name).simpleValue p.name
    return if v.isNull && !s.showsNull then none else shown (.simple v)
  | .single (.complex _) => do
    match ← a.get data p.name with
    | .null => return if s.showsNull then shown (.complex none) else none
    | .record r => return (← complexValues s depth r).bind fun values => shown (.complex values)
    | v => throw (.invalidRecord (.notComplex p.name v.inspect))
  | .collection _ item => do
    let values ← a.getAll data p.name
    if values.isNone && !s.showsNull then return none
    let items ← collectionItems s depth p.name item (values.getD [])
    return items.bind fun items => shown (.collection item items)
  | .entity _ => .ok none
termination_by (depth, 3, 0)

end

/-- The value of a property of a record, if it is shown. -/
def project (s : Snapshot α) (a : Accessor α) (data : α) (p : Property) :
    Except Failure (Option NamedValue) :=
  s.namedValue nestingLimit a data p

def toEntity (s : Snapshot α) (set : EntitySet) (r : Record α) (selection : Selection) :
    Except Failure (Entity α) := do
  let e ← s.entry set.name
  let key ← key set e.accessor r.data
  let values ← (set.type.properties.filter fun p => selection.isSelected p.name).mapM fun p =>
    s.project e.accessor r.data p
  let links ← (set.type.navigations.filter fun n => selection.isSelected n.name).mapM fun n => do
    if _ : selection.isExpanded n.name then
      let expanded (other : Record α) : Except Failure (Entity α) := do
        toEntity s (← s.setOfShape other.shape) other (selection.navigate n.name)
      let records ← e.accessor.related r.data n
      if n.multiplicity.isMany then
        return (⟨n.name, .many (← records.mapM expanded)⟩ : Link α)
      else
        match records.head? with
        | none => return ⟨n.name, .single none⟩
        | some other => return ⟨n.name, .single (some (← expanded other))⟩
    else
      return ⟨n.name, .deferred n.multiplicity.isMany⟩
  return (← Entity.create set key (values.filterMap id) links).withRecord r
termination_by selection.remaining
decreasing_by exact Selection.remaining_navigate_lt (by assumption)

end Snapshot

end Edm
