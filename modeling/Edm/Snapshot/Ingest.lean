import Edm.Snapshot

/-!
This module contains the way from entities to new records. A record is filled in the order in which
its type declares properties and navigations, between the calls of the hooks of its registration.
-/

namespace Edm

variable {α : Type}

/-- Computations that call hooks; the calls are kept in order, also when the computation fails. -/
abbrev Ingest (α : Type) := ExceptT Failure (StateM (List (HookCall α)))

/-- Call a hook, if there is one, on the contents of a record. -/
def callHook (hooks? : Option (Hooks α)) (stage : Stage) (source : Source α) (data : α) :
    Ingest α α := do
  match hooks? with
  | none => return data
  | some hooks =>
    match hooks.hook? stage with
    | none => return data
    | some hook =>
      modify fun calls => calls ++ [⟨hooks.label, stage, source, data⟩]
      hook source data

def recordShape (name : String) : Option FieldType → Except Failure Shape
  | some (.record shape) => .ok shape
  | _ => .error (.invalidRecord (.notRecordField name))

theorem NamedValue.sizeOf_content_lt {ps : List NamedValue} {name : String} {p : NamedValue}
    (h : NamedValue.find? ps name = some p) : sizeOf p.content < sizeOf ps := by
  have := List.sizeOf_lt_of_mem (List.mem_of_find?_eq_some h)
  cases p
  simp only [NamedValue.mk.sizeOf_spec] at *
  omega

theorem Entity.sizeOf_target_lt {e : Entity α} {name : String} {l : Link α}
    (h : e.link? name = some l) : sizeOf l.target < sizeOf e := by
  have := List.sizeOf_lt_of_mem (List.mem_of_find?_eq_some h)
  cases e
  cases l
  simp only [Entity.mk.sizeOf_spec, Link.mk.sizeOf_spec] at *
  omega

namespace Snapshot

mutual

def toComplexRecord (s : Snapshot α) (values : List NamedValue) (shape : Shape) :
    Ingest α (Record α) := do
  match s.registry.complexOfShape? shape with
  | none => throw (.notFound (.complexTypeOfShape shape.label))
  | some e =>
    match s.model.complexType? e.typeName with
    | none => throw (.notFound (.complexType e.typeName))
    | some t =>
      let data ← e.accessor.create
      let data ← callHook e.hooks? .before (.complex values) data
      let data ← fill s e.accessor values t.properties data
      let data ← callHook e.hooks? .after (.complex values) data
      return ⟨shape, data⟩
termination_by (sizeOf values, 1, 0)

/-- Fill the declared properties of a record; only those that can be null may be missing. -/
def fill (s : Snapshot α) (a : Accessor α) (values : List NamedValue)
    (declared : List Property) (data : α) : Ingest α α := do
  match declared with
  | [] => return data
  | p :: declared =>
    match h : NamedValue.find? values p.name with
    | none =>
      if p.nullable then fill s a values declared data
      else throw (.missingProperty p.name)
    | some v =>
      have := NamedValue.sizeOf_content_lt h
      let data ← setProperty s a p v.content data
      fill s a values declared data
termination_by (sizeOf values, 0, declared.length)

def setProperty (s : Snapshot α) (a : Accessor α) (p : Property) (content : Content) (data : α) :
    Ingest α α := do
  match p.type, content with
  | .single (.simple _), .simple v => a.set data p.name (.ofValue v)
  | .single (.complex _), .complex none => a.set data p.name .null
  | .single (.complex _), .complex (some values) =>
    let shape ← recordShape p.name (a.fieldType? p.name)
    a.set data p.name (.record (← toComplexRecord s values shape))
  | .collection .., .collection _ items =>
    a.setAll data p.name (← fieldValues s a p.name items)
  | type, _ => throw (.invalidRecord (.misfit p.name type.fullName))
termination_by (sizeOf content, 0, 0)
decreasing_by
  all_goals
    apply Prod.Lex.left
    simp +arith [wfParam]

def fieldValues (s : Snapshot α) (a : Accessor α) (name : String) (items : List Item) :
    Ingest α (List (FieldValue α)) := do
  match items with
  | [] => return []
  | .simple v :: items => return .ofValue v :: (← fieldValues s a name items)
  | .complex values :: items =>
    let shape ← recordShape name (a.itemType? name)
    let r ← toComplexRecord s values shape
    return .record r :: (← fieldValues s a name items)
termination_by (sizeOf items, 0, 0)

end

mutual

def toRecord (s : Snapshot α) (entity : Entity α) (shape : Shape) : Ingest α (Record α) := do
  match s.registry.setOfShape? shape with
  | none => throw (.notFound (.entitySetOfShape shape.label))
  | some e =>
    let set ← s.model.entitySet e.name
    let data ← e.accessor.create
    let data ← callHook e.hooks? .before (.entity entity) data
    let data ← s.fill e.accessor entity.values set.type.properties data
    let data ← followLinks s e.accessor entity set.type.navigations data
    let data ← callHook e.hooks? .after (.entity entity) data
    return ⟨shape, data⟩
termination_by (sizeOf entity, 1, 0)

def followLinks (s : Snapshot α) (a : Accessor α) (entity : Entity α)
    (navigations : List Navigation) (data : α) : Ingest α α := do
  match navigations with
  | [] => return data
  | n :: navigations =>
    match h : entity.link? n.name with
    | none => followLinks s a entity navigations data
    | some l =>
      have := Entity.sizeOf_target_lt h
      let data ← setNavigation s a n.name l.target data
      followLinks s a entity navigations data
termination_by (sizeOf entity, 0, navigations.length)

/-- Set the field of a navigation, unless the entities are not shown. -/
def setNavigation (s : Snapshot α) (a : Accessor α) (name : String) (target : Target α)
    (data : α) : Ingest α α := do
  match target with
  | .deferred _ => return data
  | .single none => a.set data name .null
  | .single (some entity) =>
    let shape ← recordShape name (a.fieldType? name)
    a.set data name (.record (← toRecord s entity shape))
  | .many entities =>
    let shape ← recordShape name (a.itemType? name)
    a.setAll data name (← toRecords s entities shape)
termination_by (sizeOf target, 0, 0)

def toRecords (s : Snapshot α) (entities : List (Entity α)) (shape : Shape) :
    Ingest α (List (FieldValue α)) := do
  match entities with
  | [] => return []
  | entity :: entities =>
    let r ← toRecord s entity shape
    return .record r :: (← toRecords s entities shape)
termination_by (sizeOf entities, 0, 0)

end

end Snapshot

end Edm
