import Edm.Accessor.Derived
import Edm.Accessor.Typed
import Edm.Proofs.Outcome
import Edm.Proofs.Registrations

/-!
This module contains the laws of accessors whose fields keep what is written to them. They hold for
accessors of typed records if the fields are lawful, and for the accessors that are made from those.
-/

namespace Edm

variable {α τ : Type} {types : Shape → Type}

section

variable (kinds : (shape : Shape) → Kind α (types shape))

/-- The contents are those of a record of the type that a shape stands for. -/
def IsOf (shape : Shape) (data : α) : Prop := ∃ t, (kinds shape).inject t = data

inductive Nested : FieldType → FieldValue α → Prop where
  | record {shape : Shape} {data : α} (h : IsOf kinds shape data)
      : Nested (.record shape) (.record ⟨shape, data⟩)

inductive AllNested : FieldType → List (FieldValue α) → Prop where
  | records {shape : Shape} {vs : List (FieldValue α)}
      (h : ∀ v ∈ vs, Nested kinds (.record shape) v) : AllNested (.record shape) vs

inductive FitsItem : FieldType → FieldValue α → Prop where
  | simple (t : SimpleType) (v : Value) : FitsItem (.simple t) (.ofValue v)
  | enumeration (name member : String) : FitsItem (.enumeration name) (.enum member)
  | nested {type : FieldType} {v : FieldValue α} (h : Nested kinds type v) : FitsItem type v

inductive Fits : FieldType → FieldValue α → Prop where
  | item {type : FieldType} {v : FieldValue α} (h : FitsItem kinds type v) : Fits type v
  | null (shape : Shape) : Fits (.record shape) .null

variable {kinds}

theorem FitsItem.exists_value {t : SimpleType} {v : FieldValue α} (h : FitsItem kinds (.simple t) v)
    : ∃ w, v = .ofValue w := by
  cases h with
  | simple t w => exact ⟨w, rfl⟩
  | nested h => cases h

theorem FitsItem.exists_record {shape : Shape} {v : FieldValue α}
    (h : FitsItem kinds (.record shape) v)
    : ∃ data, IsOf kinds shape data ∧ v = .record ⟨shape, data⟩ := by
  cases h with
  | nested h =>
    cases h with
    | @record _ data hdata => exact ⟨data, hdata, rfl⟩

variable (kinds)

inductive Member.Declared : Member α τ → Prop where
  | simple {ν : Type} (name : String) (type : SimpleType) (s : Scalar ν) (get : τ → ν)
      (set : τ → ν → τ) : Declared (.simple name type s get set)
  | enumeration (name enum : String) (get : τ → String) (set : τ → String → Except Failure τ)
      : Declared (.enumeration name enum get set)
  | record (name : String) (shape : Shape) (get : τ → Option (types shape))
      (set : τ → Option (types shape) → τ) : Declared (.record name shape (kinds shape) get set)
  | simples {ν : Type} (name : String) (type : SimpleType) (s : Scalar ν) (get : τ → List ν)
      (set : τ → List ν → τ) : Declared (.simples name type s get set)
  | records (name : String) (shape : Shape) (get : τ → List (types shape))
      (set : τ → List (types shape) → τ) : Declared (.records name shape (kinds shape) get set)
  | notNull {m : Member α τ} (h : Declared m) : Declared m.notNull

/-- The field has the same value, or the same values, in two records. -/
def Slot.Agrees (slot : Slot α τ) (t t' : τ) : Prop :=
  match slot with
  | .single get _ => get t = get t'
  | .many get _ => get t = get t'

/-- Writing the value gives a record that has it in the field and is the same in all others. -/
def Member.Keeps {ν : Type} (members : List (Member α τ)) (m : Member α τ) (get : τ → ν)
    (set : τ → ν → Except Failure τ) (v : ν) : Prop :=
  ∀ t, ∃ t',
    set t v = .ok t'
      ∧
    get t' = v
      ∧
    ∀ m' ∈ members, m'.field.name ≠ m.field.name → m'.slot.Agrees t t'

structure Member.Lawful (members : List (Member α τ)) (m : Member α τ) : Prop where
  single : ∀ get set, m.slot = .single get set → ∀ t, m.Keeps members get set (get t)
  many : ∀ get set, m.slot = .many get set → ∀ t, m.Keeps members get set (get t)

/--
The field keeps the nested records of the type that it declares, also those that its getter cannot
produce.
-/
structure Member.KeepsNested (members : List (Member α τ)) (m : Member α τ) : Prop where
  single : ∀ get set, m.slot = .single get set →
    ∀ v, Nested kinds m.field.type v → m.Keeps members get set v
  many : ∀ get set, m.slot = .many get set →
    ∀ vs, AllNested kinds m.field.type vs → m.Keeps members get set vs

/-- Accessors of typed records with lawful fields, and the accessors that are made from them. -/
inductive Accessor.LawfulTyped : Shape → Accessor α → Prop where
  | typed {shape : Shape} {empty : types shape} {members : List (Member α (types shape))}
      (hnames : (members.map (·.field.name)).Nodup)
      (hdeclared : ∀ m ∈ members, m.Declared kinds)
      (hlawful : ∀ m ∈ members, m.Lawful members)
      (hnested : ∀ m ∈ members, m.KeepsNested kinds members)
      : LawfulTyped shape (.typed (kinds shape) empty members)
  | enumsAsText {shape : Shape} {a : Accessor α} (ha : LawfulTyped shape a)
      : LawfulTyped shape a.enumsAsText
  | withComputedKey {shape : Shape} {a : Accessor α} (type : SimpleType)
      (key : α → Except Failure Value) (ha : LawfulTyped shape a)
      (hname : entityId ∉ a.fields.map (·.name)) : LawfulTyped shape (a.withComputedKey type key)

end

namespace Accessor

/-- The field of some name has the same value, or the same values, in two records. -/
def SameAt (a : Accessor α) (name : String) (data data' : α) : Prop :=
  a.get data name = a.get data' name ∧ a.getAll data name = a.getAll data' name

/-- The first field is a computed key, which is not changed by writing it. -/
structure HasComputedKey (a : Accessor α) : Prop where
  field : ∃ type fields, a.fields = ⟨entityId, .simple type, false, false⟩ :: fields
  set : ∀ data v, a.set data entityId v = .ok data

def Stores (a : Accessor α) (name : String) : Prop := a.HasComputedKey → name ≠ entityId

/-- Only fields of the given names may have other values in the second record. -/
def SameBut (a : Accessor α) (names : List String) (data data' : α) : Prop :=
  ∀ name, name ∉ names → a.Stores name → a.SameAt name data data'

/--
The fields of records of a shape have values of their types. What some record has in a field, and
every nested record of the right type, can be written to it in another one and is then read from it,
while the other fields stay as they are.
-/
structure Lawful (kinds : (shape : Shape) → Kind α (types shape)) (shape : Shape) (a : Accessor α) :
    Prop where
  names : (a.fields.map (·.name)).Nodup
  create : ∃ data, a.create = .ok data ∧ IsOf kinds shape data
  get : ∀ f ∈ a.fields, f.collection = false → a.Stores f.name →
    ∀ data, IsOf kinds shape data → ∃ v, a.get data f.name = .ok v ∧ Fits kinds f.type v
  set : ∀ f ∈ a.fields, f.collection = false → a.Stores f.name →
    ∀ data v, IsOf kinds shape data →
      (∃ data₀, IsOf kinds shape data₀ ∧ a.get data₀ f.name = .ok v) ∨ Nested kinds f.type v →
        ∃ data',
          a.set data f.name v = .ok data'
            ∧
          IsOf kinds shape data'
            ∧
          a.get data' f.name = .ok v
            ∧
          a.SameBut [f.name] data data'
  getAll : ∀ f ∈ a.fields, f.collection = true →
    ∀ data, IsOf kinds shape data →
      ∃ vs, a.getAll data f.name = .ok (some vs) ∧ ∀ v ∈ vs, FitsItem kinds f.type v
  setAll : ∀ f ∈ a.fields, f.collection = true →
    ∀ data vs, IsOf kinds shape data →
      (∃ data₀, IsOf kinds shape data₀ ∧ a.getAll data₀ f.name = .ok (some vs))
          ∨ AllNested kinds f.type vs →
        ∃ data',
          a.setAll data f.name vs = .ok data'
            ∧
          IsOf kinds shape data'
            ∧
          a.getAll data' f.name = .ok (some vs)
            ∧
          a.SameBut [f.name] data data'

theorem SameBut.refl (a : Accessor α) (names : List String) (data : α)
    : a.SameBut names data data := by
  intro name _ _
  exact ⟨rfl, rfl⟩

theorem SameBut.trans {a : Accessor α} {names names' : List String} {data data' data'' : α}
    (h : a.SameBut names data data') (h' : a.SameBut names' data' data'')
    : a.SameBut (names ++ names') data data'' := by
  intro name hname hstored
  rw [List.mem_append, not_or] at hname
  obtain ⟨hget, hgetAll⟩ := h name hname.1 hstored
  obtain ⟨hget', hgetAll'⟩ := h' name hname.2 hstored
  exact ⟨hget.trans hget', hgetAll.trans hgetAll'⟩

theorem Lawful.computed_of_not_stores {kinds : (shape : Shape) → Kind α (types shape)}
    {shape : Shape} {a : Accessor α} (ha : a.Lawful kinds shape) {f : Field} (hf : f ∈ a.fields)
    (hstores : ¬ a.Stores f.name)
    : (∃ type, f.type = .simple type)
        ∧
      f.collection = false
        ∧
      ∀ data v, a.set data f.name v = .ok data := by
  unfold Stores at hstores
  rw [Classical.not_imp, Classical.not_not] at hstores
  obtain ⟨hcomputed, hname⟩ := hstores
  obtain ⟨type, fields, hfields⟩ := hcomputed.field
  have hhead : ⟨entityId, .simple type, false, false⟩ ∈ a.fields := by
    rw [hfields]
    exact List.mem_cons_self
  rw [List.inj_on_of_nodup_map ha.names hf hhead hname]
  exact ⟨⟨type, rfl⟩, rfl, hcomputed.set⟩

/-! ### Typed records -/

section

variable {kinds : (shape : Shape) → Kind α (types shape)} {k : Kind α τ} {empty : τ}
  {members : List (Member α τ)} {m : Member α τ}

theorem fits_of_declared_single (hm : m.Declared kinds) {get : τ → FieldValue α}
    {set : τ → FieldValue α → Except Failure τ} (hslot : m.slot = .single get set) (t : τ)
    : m.field.collection = false ∧ Fits kinds m.field.type (get t) := by
  induction hm with
  | simple name type s get' set' =>
    cases hslot
    exact ⟨rfl, .item (.simple type _)⟩
  | enumeration name enum get' set' =>
    cases hslot
    exact ⟨rfl, .item (.enumeration enum _)⟩
  | record name shape get' set' =>
    cases hslot
    refine ⟨rfl, ?_⟩
    dsimp [Member.record, Member.single]
    split
    . exact .null shape
    . next r _ => exact .item (.nested (.record ⟨r, rfl⟩))
  | simples name type s get' set' => cases hslot
  | records name shape get' set' => cases hslot
  | notNull h ih => exact ih hslot

theorem fits_of_declared_many (hm : m.Declared kinds) {get : τ → List (FieldValue α)}
    {set : τ → List (FieldValue α) → Except Failure τ} (hslot : m.slot = .many get set) (t : τ)
    : m.field.collection = true ∧ ∀ v ∈ get t, FitsItem kinds m.field.type v := by
  induction hm with
  | simple name type s get' set' => cases hslot
  | enumeration name enum get' set' => cases hslot
  | record name shape get' set' => cases hslot
  | simples name type s get' set' =>
    cases hslot
    refine ⟨rfl, ?_⟩
    intro v hv
    obtain ⟨x, _, rfl⟩ := List.mem_map.mp hv
    exact .simple type _
  | records name shape get' set' =>
    cases hslot
    refine ⟨rfl, ?_⟩
    intro v hv
    obtain ⟨x, _, rfl⟩ := List.mem_map.mp hv
    exact .nested (.record ⟨x, rfl⟩)
  | notNull h ih => exact ih hslot

theorem findMember_of_mem (hnames : (members.map (·.field.name)).Nodup) (hm : m ∈ members)
    : findMember k members m.field.name = .ok m.slot := by
  unfold findMember
  rw [find?_eq_some_of_nodup hnames hm]

theorem projectOrFail_inject (k : Kind α τ) (t : τ) : projectOrFail k (k.inject t) = .ok t := by
  unfold projectOrFail
  rw [k.project?_inject]

theorem typed_get (hnames : (members.map (·.field.name)).Nodup) (hm : m ∈ members)
    {get : τ → FieldValue α} {set : τ → FieldValue α → Except Failure τ}
    (hslot : m.slot = .single get set) (t : τ)
    : (typed k empty members).get (k.inject t) m.field.name = .ok (get t) := by
  unfold typed
  dsimp
  rw [projectOrFail_inject, ok_bind, findMember_of_mem hnames hm, hslot]
  rfl

theorem typed_set (hnames : (members.map (·.field.name)).Nodup) (hm : m ∈ members)
    {get : τ → FieldValue α} {set : τ → FieldValue α → Except Failure τ}
    (hslot : m.slot = .single get set) {t t' : τ} {v : FieldValue α} (ht' : set t v = .ok t')
    : (typed k empty members).set (k.inject t) m.field.name v = .ok (k.inject t') := by
  unfold typed
  dsimp
  rw [projectOrFail_inject, findMember_of_mem hnames hm, hslot, ok_bind, ok_bind]
  dsimp
  rw [ht']
  rfl

theorem typed_getAll (hnames : (members.map (·.field.name)).Nodup) (hm : m ∈ members)
    {get : τ → List (FieldValue α)} {set : τ → List (FieldValue α) → Except Failure τ}
    (hslot : m.slot = .many get set) (t : τ)
    : (typed k empty members).getAll (k.inject t) m.field.name = .ok (some (get t)) := by
  unfold typed
  dsimp
  rw [projectOrFail_inject, ok_bind, findMember_of_mem hnames hm, hslot]
  rfl

theorem typed_setAll (hnames : (members.map (·.field.name)).Nodup) (hm : m ∈ members)
    {get : τ → List (FieldValue α)} {set : τ → List (FieldValue α) → Except Failure τ}
    (hslot : m.slot = .many get set) {t t' : τ} {vs : List (FieldValue α)}
    (ht' : set t vs = .ok t')
    : (typed k empty members).setAll (k.inject t) m.field.name vs = .ok (k.inject t') := by
  unfold typed
  dsimp
  rw [projectOrFail_inject, findMember_of_mem hnames hm, hslot, ok_bind, ok_bind]
  dsimp
  rw [ht']
  rfl

theorem typed_sameAt {name : String} {t t' : τ}
    (h : ∀ m ∈ members, m.field.name = name → m.slot.Agrees t t')
    : (typed k empty members).SameAt name (k.inject t) (k.inject t') := by
  unfold SameAt typed
  dsimp
  rw [projectOrFail_inject, projectOrFail_inject, ok_bind, ok_bind, ok_bind, ok_bind]
  cases hfind : findMember k members name with
  | error failure => exact ⟨rfl, rfl⟩
  | ok slot =>
    unfold findMember at hfind
    split at hfind
    . next m hm =>
      cases hfind
      have hagrees := h m (List.mem_of_find?_eq_some hm) (by simpa using List.find?_some hm)
      rw [ok_bind, ok_bind, ok_bind, ok_bind]
      unfold Slot.Agrees at hagrees
      cases hslot : m.slot with
      | single get set =>
        rw [hslot] at hagrees
        dsimp at hagrees ⊢
        rw [hagrees]
        exact ⟨rfl, rfl⟩
      | many get set =>
        rw [hslot] at hagrees
        dsimp at hagrees ⊢
        rw [hagrees]
        exact ⟨rfl, rfl⟩
    . cases hfind

theorem typed_sameBut {name : String} {t t' : τ}
    (h : ∀ m ∈ members, m.field.name ≠ name → m.slot.Agrees t t')
    : (typed k empty members).SameBut [name] (k.inject t) (k.inject t') := by
  intro other hother _
  apply typed_sameAt
  rintro m hm rfl
  exact h m hm (by simpa using hother)

end

section

variable {kinds : (shape : Shape) → Kind α (types shape)} {shape : Shape} {empty : types shape}
  {members : List (Member α (types shape))}

theorem slot_cases {m : Member α τ} (hm : m.Declared kinds)
    : (∃ get set, m.slot = .single get set ∧ m.field.collection = false)
        ∨
      ∃ get set, m.slot = .many get set ∧ m.field.collection = true := by
  induction hm with
  | simple name type s get set => exact .inl ⟨_, _, rfl, rfl⟩
  | enumeration name enum get set => exact .inl ⟨_, _, rfl, rfl⟩
  | record name shape get set => exact .inl ⟨_, _, rfl, rfl⟩
  | simples name type s get set => exact .inr ⟨_, _, rfl, rfl⟩
  | records name shape get set => exact .inr ⟨_, _, rfl, rfl⟩
  | notNull h ih => exact ih

theorem typed_lawful (hnames : (members.map (·.field.name)).Nodup)
    (hdeclared : ∀ m ∈ members, m.Declared kinds) (hlawful : ∀ m ∈ members, m.Lawful members)
    (hnested : ∀ m ∈ members, m.KeepsNested kinds members)
    : (typed (kinds shape) empty members).Lawful kinds shape where
  names := by
    unfold typed
    dsimp
    rw [List.map_map]
    exact hnames
  create := ⟨_, rfl, empty, rfl⟩
  get := by
    rintro f hf hsingle _ _ ⟨t, rfl⟩
    obtain ⟨m, hm, rfl⟩ := List.mem_map.mp hf
    obtain ⟨get, set, hslot, _⟩ | ⟨_, _, _, hmany⟩ := slot_cases (hdeclared m hm)
    . exact ⟨get t, typed_get hnames hm hslot t,
        (fits_of_declared_single (hdeclared m hm) hslot t).2⟩
    . rw [hmany] at hsingle
      contradiction
  set := by
    rintro f hf hsingle _ _ v ⟨t, rfl⟩ hv
    obtain ⟨m, hm, rfl⟩ := List.mem_map.mp hf
    obtain ⟨get, set, hslot, _⟩ | ⟨_, _, _, hmany⟩ := slot_cases (hdeclared m hm)
    . have hkeeps : m.Keeps members get set v := by
        rcases hv with ⟨_, ⟨t₀, rfl⟩, hget⟩ | hv
        . rw [typed_get hnames hm hslot] at hget
          cases hget
          exact (hlawful m hm).single get set hslot t₀
        . exact (hnested m hm).single get set hslot v hv
      obtain ⟨t', ht', hread, hothers⟩ := hkeeps t
      refine ⟨_, typed_set hnames hm hslot ht', ⟨t', rfl⟩, ?_, typed_sameBut hothers⟩
      rw [typed_get hnames hm hslot, hread]
    . rw [hmany] at hsingle
      contradiction
  getAll := by
    rintro f hf hmany _ ⟨t, rfl⟩
    obtain ⟨m, hm, rfl⟩ := List.mem_map.mp hf
    obtain ⟨_, _, _, hsingle⟩ | ⟨get, set, hslot, _⟩ := slot_cases (hdeclared m hm)
    . rw [hsingle] at hmany
      contradiction
    . exact ⟨get t, typed_getAll hnames hm hslot t,
        (fits_of_declared_many (hdeclared m hm) hslot t).2⟩
  setAll := by
    rintro f hf hmany _ vs ⟨t, rfl⟩ hvs
    obtain ⟨m, hm, rfl⟩ := List.mem_map.mp hf
    obtain ⟨_, _, _, hsingle⟩ | ⟨get, set, hslot, _⟩ := slot_cases (hdeclared m hm)
    . rw [hsingle] at hmany
      contradiction
    . have hkeeps : m.Keeps members get set vs := by
        rcases hvs with ⟨_, ⟨t₀, rfl⟩, hget⟩ | hvs
        . rw [typed_getAll hnames hm hslot] at hget
          cases hget
          exact (hlawful m hm).many get set hslot t₀
        . exact (hnested m hm).many get set hslot vs hvs
      obtain ⟨t', ht', hread, hothers⟩ := hkeeps t
      refine ⟨_, typed_setAll hnames hm hslot ht', ⟨t', rfl⟩, ?_, typed_sameBut hothers⟩
      rw [typed_getAll hnames hm hslot, hread]

end

end Accessor

end Edm
