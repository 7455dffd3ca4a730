import Edm.Failure
import Edm.Value.Text

/-!
This module contains models: the entity sets of a service, the types of their members, and the
complex types that properties can have. Names are unique in a model, entity types have keys, and the
items of a collection are simple or complex values; this is checked when they are made.
-/

namespace Edm

inductive CollectionKind where
  | bag
  | list
  | collection
deriving DecidableEq, Repr

def CollectionKind.name : CollectionKind → String
  | .bag => "Bag"
  | .list => "List"
  | .collection => "Collection"

def CollectionKind.ofName? (name : String) : Option CollectionKind :=
  [.bag, .list, .collection].find? fun k => k.name == name

inductive Multiplicity where
  | one
  | zeroOrOne
  | many
deriving DecidableEq, Repr

namespace Multiplicity

def isMany : Multiplicity → Bool
  | .many => true
  | _ => false

def symbol : Multiplicity → String
  | .one => "1"
  | .zeroOrOne => "0..1"
  | .many => "*"

def ofSymbol? (symbol : String) : Option Multiplicity :=
  [one, zeroOrOne, many].find? fun m => m.symbol == symbol

def name : Multiplicity → String
  | .one => "One"
  | .zeroOrOne => "ZeroOrOne"
  | .many => "Many"

end Multiplicity

/-- A relation from one entity type to another, which is given by its name. -/
structure Navigation where
  name : String
  multiplicity : Multiplicity
  target : String
deriving DecidableEq, Repr

mutual

inductive ItemType where
  | simple (t : SimpleType)
  | complex (t : ComplexType)

inductive PropertyType where
  | single (t : ItemType)
  | collection (kind : CollectionKind) (item : ItemType)
  | entity (t : EntityType)

structure Property where
  name : String
  type : PropertyType
  nullable : Bool

/-- A type of values that have properties and no identity. -/
structure ComplexType where
  namespace_ : String
  name : String
  properties : List Property

structure EntityType where
  namespace_ : String
  name : String
  keys : List String
  properties : List Property
  navigations : List Navigation

end

namespace ComplexType

def fullName (t : ComplexType) : String := t.namespace_ ++ "." ++ t.name

def property? (t : ComplexType) (name : String) : Option Property :=
  t.properties.find? fun p => p.name == name

end ComplexType

namespace EntityType

def fullName (t : EntityType) : String := t.namespace_ ++ "." ++ t.name

def property? (t : EntityType) (name : String) : Option Property :=
  t.properties.find? fun p => p.name == name

def navigation? (t : EntityType) (name : String) : Option Navigation :=
  t.navigations.find? fun n => n.name == name

/-- An entity type, whose keys have to be among its properties. -/
def create (namespace_ name : String) (keys : List String) (properties : List Property)
    (navigations : List Navigation) : Except Failure EntityType :=
  if keys.isEmpty then .error (.invalidMetadata (.noKey name))
  else
    match keys.find? fun key => !properties.any fun p => p.name == key with
    | some key => .error (.invalidMetadata (.unknownKey key name))
    | none => .ok ⟨namespace_, name, keys, properties, navigations⟩

end EntityType

def ItemType.fullName : ItemType → String
  | .simple t => t.name
  | .complex t => t.fullName

namespace PropertyType

def fullName : PropertyType → String
  | .single t => t.fullName
  | .collection kind item => kind.name ++ "(" ++ item.fullName ++ ")"
  | .entity t => t.fullName

def simple (t : SimpleType) : PropertyType := .single (.simple t)

def complex (t : ComplexType) : PropertyType := .single (.complex t)

def simple? : PropertyType → Option SimpleType
  | .single (.simple t) => some t
  | _ => none

def complex? : PropertyType → Option ComplexType
  | .single (.complex t) => some t
  | _ => none

def isSimple (t : PropertyType) : Bool := t.simple?.isSome

def collectionOf (kind : CollectionKind) : PropertyType → Except Failure PropertyType
  | .single item => .ok (.collection kind item)
  | .collection .. => .error (.invalidMetadata .nestedCollection)
  | .entity _ => .error (.invalidMetadata .entityItems)

end PropertyType

/-! ### Equality -/

mutual

def ItemType.equals : ItemType → ItemType → Bool
  | .simple s, .simple t => s == t
  | .complex s, .complex t => s.equals t
  | _, _ => false

def PropertyType.equals : PropertyType → PropertyType → Bool
  | .single s, .single t => s.equals t
  | .collection j s, .collection k t => j == k && s.equals t
  | .entity s, .entity t => s.equals t
  | _, _ => false

def Property.equals : Property → Property → Bool
  | ⟨m, s, a⟩, ⟨n, t, b⟩ => m == n && s.equals t && a == b

def ComplexType.equals : ComplexType → ComplexType → Bool
  | ⟨j, m, ps⟩, ⟨k, n, qs⟩ => j == k && m == n && propertiesEqual ps qs

def EntityType.equals : EntityType → EntityType → Bool
  | ⟨j, m, js, ps, ms⟩, ⟨k, n, ks, qs, ns⟩ =>
    j == k && m == n && js == ks && propertiesEqual ps qs && ms == ns

def propertiesEqual : List Property → List Property → Bool
  | [], [] => true
  | p :: ps, q :: qs => p.equals q && propertiesEqual ps qs
  | _, _ => false

end

structure EntitySet where
  name : String
  type : EntityType

def firstRepeated? (names : List String) : Option String :=
  go [] names
where
  go (seen : List String) : List String → Option String
    | [] => none
    | name :: names => if seen.contains name then some name else go (name :: seen) names

theorem firstRepeated?.go_eq_none_iff {seen names : List String} :
    go seen names = none ↔ names.Nodup ∧ ∀ name ∈ names, name ∉ seen := by
  induction names generalizing seen with
  | nil => simp [go]
  | cons name names ih =>
    by_cases h : name ∈ seen
    · simp [go, h]
    · simp only [go, List.contains_eq_mem, h, decide_false, Bool.false_eq_true, if_false, ih,
        List.nodup_cons, List.mem_cons, not_or]
      grind

theorem firstRepeated?_eq_none_iff {names : List String} :
    firstRepeated? names = none ↔ names.Nodup := by
  simp [firstRepeated?, firstRepeated?.go_eq_none_iff]

structure Model where
  namespace_ : String
  containerName : String
  sets : List EntitySet
  complexTypes : List ComplexType
  setNames_nodup : (sets.map (·.name)).Nodup
  typeNames_nodup : (sets.map (·.type.name)).Nodup
  complexNames_nodup : (complexTypes.map (·.name)).Nodup

namespace Model

def checkUnique (kind : NameSpace) (names : List String) : Except Failure (PLift names.Nodup) :=
  match h : firstRepeated? names with
  | some name => .error (.invalidMetadata (.duplicate kind name))
  | none => .ok ⟨firstRepeated?_eq_none_iff.mp h⟩

/-- A model with the given sets and complex types, each of whose names has to be unique. -/
def create (namespace_ containerName : String) (sets : List EntitySet)
    (complexTypes : List ComplexType) : Except Failure Model := do
  let ⟨setNames⟩ ← checkUnique .entitySet (sets.map (·.name))
  let ⟨typeNames⟩ ← checkUnique .entityType (sets.map (·.type.name))
  let ⟨complexNames⟩ ← checkUnique .complexType (complexTypes.map (·.name))
  return ⟨namespace_, containerName, sets, complexTypes, setNames, typeNames, complexNames⟩

def entityTypes (m : Model) : List EntityType := m.sets.map (·.type)

def entitySet? (m : Model) (name : String) : Option EntitySet :=
  m.sets.find? fun s => s.name == name

def entitySet (m : Model) (name : String) : Except Failure EntitySet :=
  match m.entitySet? name with
  | some s => .ok s
  | none => .error (.notFound (.entitySet name))

def entitySetOfType? (m : Model) (type : String) : Option EntitySet :=
  m.sets.find? fun s => s.type.name == type

def entityType? (m : Model) (name : String) : Option EntityType :=
  m.entityTypes.find? fun t => t.name == name

def complexType? (m : Model) (name : String) : Option ComplexType :=
  m.complexTypes.find? fun t => t.name == name

end Model

/-! ### JSON -/

def Property.toJson (p : Property) : Json :=
  .object [
    ("name", .string p.name),
    ("type", .string p.type.fullName),
    ("nullable", .bool p.nullable)]

def Navigation.toJson (n : Navigation) : Json :=
  .object [
    ("name", .string n.name),
    ("multiplicity", .string n.multiplicity.name),
    ("target_type", .string n.target)]

def ComplexType.toJson (t : ComplexType) : Json :=
  .object [
    ("namespace", .string t.namespace_),
    ("name", .string t.name),
    ("properties", .array (t.properties.map Property.toJson))]

def EntityType.toJson (t : EntityType) : Json :=
  .object [
    ("namespace", .string t.namespace_),
    ("name", .string t.name),
    ("keys", .array (t.keys.map .string)),
    ("properties", .array (t.properties.map Property.toJson)),
    ("navigation", .array (t.navigations.map Navigation.toJson))]

def EntitySet.toJson (s : EntitySet) : Json :=
  .object [("name", .string s.name), ("entity_type", s.type.toJson)]

def Model.toJson (m : Model) : Json :=
  .object [
    ("namespace", .string m.namespace_),
    ("container_name", .string m.containerName),
    ("entity_sets", .array (m.sets.map EntitySet.toJson)),
    ("entity_types", .array (m.entityTypes.map EntityType.toJson)),
    ("complex_types", .array (m.complexTypes.map ComplexType.toJson))]

end Edm
