import Edm.Key
import Edm.Model
import Edm.Record

/-!
This module contains entities as they are shown: a key, named values and links to other entities.
An entity may remember the record that it shows.
-/

namespace Edm

mutual

structure NamedValue where
  name : String
  type : PropertyType
  content : Content

/-- The value of a property; a complex value may be null. -/
inductive Content where
  | simple (v : Value)
  | complex (values : Option (List NamedValue))
  | collection (type : ItemType) (items : List Item)

inductive Item where
  | simple (v : Value)
  | complex (values : List NamedValue)

end

namespace NamedValue

def isNull (p : NamedValue) : Bool :=
  match p.content with
  | .simple v => v.isNull
  | .complex values => values.isNone
  | .collection .. => false

def simple? (p : NamedValue) : Option Value :=
  match p.content with
  | .simple v => some v
  | _ => none

def find? (ps : List NamedValue) (name : String) : Option NamedValue :=
  ps.find? fun p => p.name == name

end NamedValue

mutual

structure Entity (α : Type) where
  set : String
  type : EntityType
  key : Key
  values : List NamedValue
  links : List (Link α)
  record? : Option (Record α)

structure Link (α : Type) where
  name : String
  target : Target α

inductive Target (α : Type) where
  | deferred (many : Bool)
  | single (entity : Option (Entity α))
  | many (entities : List (Entity α))

end

namespace Link

variable {α : Type}

def isInline (l : Link α) : Bool :=
  match l.target with
  | .deferred _ => false
  | _ => true

def isMany (l : Link α) : Bool :=
  match l.target with
  | .deferred many => many
  | .single _ => false
  | .many _ => true

def related (l : Link α) : List (Entity α) :=
  match l.target with
  | .deferred _ => []
  | .single entity => entity.toList
  | .many entities => entities

end Link

namespace Entity

variable {α : Type}

/-- An entity of the given set. Its key has to have as many values as the set has keys. -/
def create (set : EntitySet) (key : Key) (values : List NamedValue) (links : List (Link α)) :
    Except Failure (Entity α) :=
  let declared := set.type.keys.length
  if key.arity ≠ declared then
    .error (.invalidKey (.arity set.type.name declared key.arity))
  else if key.hasNull then .error (.invalidKey (.nullFor set.type.name))
  else .ok ⟨set.name, set.type, key, values, links, none⟩

def withRecord (e : Entity α) (r : Record α) : Entity α := { e with record? := some r }

def value? (e : Entity α) (name : String) : Option NamedValue := NamedValue.find? e.values name

def link? (e : Entity α) (name : String) : Option (Link α) :=
  e.links.find? fun l => l.name == name

end Entity

/-! ### Equality -/

mutual

def NamedValue.equals : NamedValue → NamedValue → Bool
  | ⟨m, s, a⟩, ⟨n, t, b⟩ => m == n && s.equals t && a.equals b

def Content.equals : Content → Content → Bool
  | .simple v, .simple w => v.equals w
  | .complex ps, .complex qs => optionalValuesEqual ps qs
  | .collection s as, .collection t bs => s.equals t && itemsEqual as bs
  | _, _ => false

def Item.equals : Item → Item → Bool
  | .simple v, .simple w => v.equals w
  | .complex ps, .complex qs => valuesEqual ps qs
  | _, _ => false

def optionalValuesEqual : Option (List NamedValue) → Option (List NamedValue) → Bool
  | none, none => true
  | some ps, some qs => valuesEqual ps qs
  | _, _ => false

def valuesEqual : List NamedValue → List NamedValue → Bool
  | [], [] => true
  | p :: ps, q :: qs => p.equals q && valuesEqual ps qs
  | _, _ => false

def itemsEqual : List Item → List Item → Bool
  | [], [] => true
  | a :: as, b :: bs => a.equals b && itemsEqual as bs
  | _, _ => false

end

section

variable {α : Type}

mutual

/-- Equality of what is shown; neither the type nor the record counts. -/
def Entity.equals : Entity α → Entity α → Bool
  | ⟨s, _, j, ps, ks, _⟩, ⟨t, _, k, qs, ls, _⟩ =>
    s == t && j.equals k && valuesEqual ps qs && linksEqual ks ls

def Link.equals : Link α → Link α → Bool
  | ⟨m, s⟩, ⟨n, t⟩ => m == n && s.equals t

def Target.equals : Target α → Target α → Bool
  | .deferred a, .deferred b => a == b
  | .single a, .single b => optionalEntitiesEqual a b
  | .many as, .many bs => entitiesEqual as bs
  | _, _ => false

def optionalEntitiesEqual : Option (Entity α) → Option (Entity α) → Bool
  | none, none => true
  | some a, some b => a.equals b
  | _, _ => false

def entitiesEqual : List (Entity α) → List (Entity α) → Bool
  | [], [] => true
  | a :: as, b :: bs => a.equals b && entitiesEqual as bs
  | _, _ => false

def linksEqual : List (Link α) → List (Link α) → Bool
  | [], [] => true
  | k :: ks, l :: ls => k.equals l && linksEqual ks ls
  | _, _ => false

end

end

end Edm
