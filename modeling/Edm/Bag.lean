import Edm.Accessor.Typed
import Edm.Accessor.Derived

/-!
This module contains records without a fixed type: bags of named values. There are two accessors for
them, one that converts the values to declared types and one that takes them as they are.
-/

namespace Edm

inductive Stored (α : Type) where
  | single (v : FieldValue α)
  | many (vs : List (FieldValue α))
  | nullMany

inductive Dynamic (β : Type) where
  | bag (values : List (String × Stored (Dynamic β)))
  | native (b : β)

structure Bag (β : Type) where
  values : List (String × Stored (Dynamic β))

namespace Bag

variable {β : Type}

def empty : Bag β := ⟨[]⟩

def find? (b : Bag β) (name : String) : Option (Stored (Dynamic β)) := b.values.lookup name

def insert (b : Bag β) (name : String) (s : Stored (Dynamic β)) : Bag β :=
  if b.values.any fun (n, _) => n == name then
    ⟨b.values.map fun (n, old) => if n == name then (n, s) else (n, old)⟩
  else ⟨b.values ++ [(name, s)]⟩

def kind (name : String) : Kind (Dynamic β) (Bag β) where
  name
  inject b := .bag b.values
  project?
    | .bag values => some ⟨values⟩
    | .native _ => none

def native (k : Kind β τ) : Kind (Dynamic β) τ where
  name := k.name
  inject t := .native (k.inject t)
  project?
    | .bag _ => none
    | .native b => k.project? b
  project?_inject t := k.project?_inject t

/-- A single value; what is not there is null. -/
def value (b : Bag β) (name : String) : Option (FieldValue (Dynamic β)) :=
  match b.find? name with
  | some (.single v) => some v
  | _ => none

def items (b : Bag β) (name : String) : List (FieldValue (Dynamic β)) :=
  match b.find? name with
  | some (.many vs) => vs
  | _ => []

/-- Convert a value; one that is missing or cannot be converted counts as the default. -/
def readAs (s : Scalar ν) (v : Option (FieldValue (Dynamic β))) : ν :=
  match v with
  | none => s.default
  | some v => (s.extract v).toOption.getD s.default

def simple (name : String) (type : SimpleType) (s : Scalar ν) : Member (Dynamic β) (Bag β) :=
  .simple name type s (fun b => readAs s (b.value name))
    (fun b v => b.insert name (.single (.ofValue (s.toValue v))))

def simples (name : String) (type : SimpleType) (s : Scalar ν) : Member (Dynamic β) (Bag β) :=
  .simples name type s (fun b => (b.items name).map fun v => readAs s (some v))
    (fun b vs => b.insert name (.many (vs.map fun v => .ofValue (s.toValue v))))

/-- An enumeration; if its members are known, no others can be set. -/
def enumeration (name enum : String) (members : List String) : Member (Dynamic β) (Bag β) :=
  .enumeration name enum
    (fun b =>
      match b.value name with
      | some (.enum member) => member
      | some (.simple (.string s)) => s
      | _ => "")
    (fun b member =>
      if members.isEmpty || members.contains member then
        .ok (b.insert name (.single (.enum member)))
      else .error (.invalidRecord (.unknownMember member)))

def ofField? : FieldValue (Dynamic β) → Option (Bag β)
  | .record ⟨_, .bag values⟩ => some ⟨values⟩
  | _ => none

def toField (shape : Shape) (b : Bag β) : FieldValue (Dynamic β) := .record ⟨shape, .bag b.values⟩

def record (kindName name : String) (shape : Shape) : Member (Dynamic β) (Bag β) :=
  .record name shape (kind kindName) (fun b => (b.value name).bind ofField?)
    (fun b r => b.insert name (.single
      (match r with
        | none => .null
        | some r => toField shape r)))

def records (kindName name : String) (shape : Shape) : Member (Dynamic β) (Bag β) :=
  .records name shape (kind kindName) (fun b => (b.items name).filterMap ofField?)
    (fun b rs => b.insert name (.many (rs.map (toField shape))))

def typedAccessor (kindName : String) (members : List (Member (Dynamic β) (Bag β))) :
    Accessor (Dynamic β) :=
  .typed (kind kindName) empty members

def rawProject (fields : List Field) (data : Dynamic β) (name : String) :
    Except Failure (Bag β) :=
  match data with
  | .native _ => .error (.invalidRecord .foreignRaw)
  | .bag values =>
    if fields.any fun f => f.name == name then .ok ⟨values⟩
    else .error (.notFound (.rawField name))

def rawAccessor (fields : List Field) : Accessor (Dynamic β) where
  fields
  create := .ok (.bag [])
  get data name := do
    match (← rawProject fields data name).find? name with
    | none => .ok .null
    | some (.single v) => .ok v
    | some _ => .error (.invalidRecord (.rawCollection name))
  set data name v := do
    return .bag ((← rawProject fields data name).insert name (.single v)).values
  getAll data name := do
    match (← rawProject fields data name).find? name with
    | none | some .nullMany => .ok none
    | some (.many vs) => .ok (some vs)
    | some (.single _) => .error (.invalidRecord (.rawSingle name))
  setAll data name vs := do
    return .bag ((← rawProject fields data name).insert name (.many vs)).values

/-- A key that is the value of a field, after a fixed text if one is given. -/
def key (field : String) (start : Option String) (b : Bag β) : Value :=
  let v : Value := match b.value field with
    | some (.simple v) => v
    | some (.enum member) => .string member
    | _ => .null
  match start with
  | none => v
  | some start => .string (start ++ v.toText)

end Bag

end Edm
