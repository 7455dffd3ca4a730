import Edm.Record.Extract

/-!
This module contains accessors for records of a known type, put together from a reader and a writer
for each field.
-/

namespace Edm

inductive Slot (α τ : Type) where
  | single (get : τ → FieldValue α) (set : τ → FieldValue α → Except Failure τ)
  | many (get : τ → List (FieldValue α)) (set : τ → List (FieldValue α) → Except Failure τ)

structure Member (α τ : Type) where
  field : Field
  slot : Slot α τ

namespace Member

variable {α τ : Type}

def single (name : String) (type : FieldType) (get : τ → FieldValue α)
    (set : τ → FieldValue α → Except Failure τ) : Member α τ :=
  ⟨⟨name, type, false, true⟩, .single get set⟩

def many (name : String) (type : FieldType) (get : τ → List (FieldValue α))
    (set : τ → List (FieldValue α) → Except Failure τ) : Member α τ :=
  ⟨⟨name, type, true, true⟩, .many get set⟩

def simple (name : String) (type : SimpleType) (s : Scalar ν) (get : τ → ν) (set : τ → ν → τ) :
    Member α τ :=
  single name (.simple type) (fun t => .ofValue (s.toValue (get t)))
    (fun t v => return set t (← s.extract v))

def enumeration (name enum : String) (get : τ → String) (set : τ → String → Except Failure τ) :
    Member α τ :=
  single name (.enumeration enum) (fun t => .enum (get t))
    (fun t v => do set t (← Scalar.string.extract v))

def record (name : String) (shape : Shape) (k : Kind α ρ) (get : τ → Option ρ)
    (set : τ → Option ρ → τ) : Member α τ :=
  single name (.record shape)
    (fun t =>
      match get t with
      | none => .null
      | some r => .record ⟨shape, k.inject r⟩)
    (fun t v => return set t (← k.extract v))

def simples (name : String) (type : SimpleType) (s : Scalar ν) (get : τ → List ν)
    (set : τ → List ν → τ) : Member α τ :=
  many name (.simple type) (fun t => (get t).map fun v => .ofValue (s.toValue v))
    (fun t vs => return set t (← vs.mapM s.extract))

/-- A collection of nested records; nulls are left out when it is written. -/
def records (name : String) (shape : Shape) (k : Kind α ρ) (get : τ → List ρ)
    (set : τ → List ρ → τ) : Member α τ :=
  many name (.record shape) (fun t => (get t).map fun r => .record ⟨shape, k.inject r⟩)
    (fun t vs => return set t ((← vs.mapM k.extract).filterMap id))

def notNull (m : Member α τ) : Member α τ := { m with field := { m.field with nullable := false } }

end Member

namespace Accessor

variable {α τ : Type}

/-- The field that was declared first under the name. -/
def findMember (k : Kind α τ) (members : List (Member α τ)) (name : String) :
    Except Failure (Slot α τ) :=
  match members.find? fun m => m.field.name == name with
  | some m => .ok m.slot
  | none => .error (.notFound (.field name k.name))

def projectOrFail (k : Kind α τ) (data : α) : Except Failure τ :=
  match k.project? data with
  | some t => .ok t
  | none => .error (.invalidRecord (.foreign k.name))

def typed (k : Kind α τ) (empty : τ) (members : List (Member α τ)) : Accessor α where
  fields := members.map (·.field)
  create := .ok (k.inject empty)
  get data name := do
    let t ← projectOrFail k data
    match ← findMember k members name with
    | .single get _ => return get t
    | .many .. => throw (.invalidRecord (.collectionField name))
  set data name v := do
    let slot ← findMember k members name
    let t ← projectOrFail k data
    match slot with
    | .single _ set => return k.inject (← set t v)
    | .many .. => throw (.invalidRecord (.collectionField name))
  getAll data name := do
    let t ← projectOrFail k data
    match ← findMember k members name with
    | .many get _ => return some (get t)
    | .single .. => throw (.invalidRecord (.singleField name))
  setAll data name vs := do
    let slot ← findMember k members name
    let t ← projectOrFail k data
    match slot with
    | .many _ set => return k.inject (← set t vs)
    | .single .. => throw (.invalidRecord (.singleField name))

end Accessor

end Edm
