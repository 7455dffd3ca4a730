import Edm.Proofs.Lawful.Derived

/-!
This module contains the laws of accessors whose fields have what was written to them. The items of
a collection are written one by one; in a collection of nested records null is no item.
-/

namespace Edm

variable {α τ : Type}

/-- What is read as a record of some type is one of that type. -/
def Kind.Exact (k : Kind α τ) : Prop := ∀ data t, k.project? data = some t → k.inject t = data

/-- Whether a value becomes an item of a collection field of some type. -/
def FieldType.hasItem (type : FieldType) (v : FieldValue α) : Bool :=
  match type, v with
  | .record _, .null => false
  | _, _ => true

/-- Only the field of some name may read differently in the second record. -/
def AgreeBut (members : List (Member α τ)) (name : String) (t t' : τ) : Prop :=
  ∀ m ∈ members, m.field.name ≠ name → m.slot.Agrees t t'

/--
A field of a typed record whose setter is seen by no other getter. If the field holds nested records
or is a collection then its getter gives what its setter was given.
-/
inductive Member.Storing (members : List (Member α τ)) : Member α τ → Prop where
  | simple {ν : Type} {name : String} {type : SimpleType} {s : Scalar ν} {get : τ → ν}
      {set : τ → ν → τ} (hothers : ∀ t x, AgreeBut members name t (set t x))
      : Storing members (.simple name type s get set)
  | enumeration {name enum : String} {get : τ → String} {set : τ → String → Except Failure τ}
      (hothers : ∀ t member t', set t member = .ok t' → AgreeBut members name t t')
      : Storing members (.enumeration name enum get set)
  | record {ρ : Type} {name : String} {shape : Shape} {k : Kind α ρ} {get : τ → Option ρ}
      {set : τ → Option ρ → τ} (hk : k.Exact) (hget : ∀ t x, get (set t x) = x)
      (hothers : ∀ t x, AgreeBut members name t (set t x))
      : Storing members (.record name shape k get set)
  | simples {ν : Type} {name : String} {type : SimpleType} {s : Scalar ν} {get : τ → List ν}
      {set : τ → List ν → τ} (hget : ∀ t xs, get (set t xs) = xs)
      (hothers : ∀ t xs, AgreeBut members name t (set t xs))
      : Storing members (.simples name type s get set)
  | records {ρ : Type} {name : String} {shape : Shape} {k : Kind α ρ} {get : τ → List ρ}
      {set : τ → List ρ → τ} (hk : k.Exact) (hget : ∀ t xs, get (set t xs) = xs)
      (hothers : ∀ t xs, AgreeBut members name t (set t xs))
      : Storing members (.records name shape k get set)
  | notNull {m : Member α τ} (h : Storing members m) : Storing members m.notNull

namespace Accessor

/-- Accessors of typed records with such fields, and the accessors that are made from them. -/
inductive StoringTyped : Accessor α → Prop where
  | typed {τ : Type} {k : Kind α τ} {empty : τ} {members : List (Member α τ)} (hk : k.Exact)
      (hnames : (members.map (·.field.name)).Nodup) (hmembers : ∀ m ∈ members, m.Storing members)
      : StoringTyped (.typed k empty members)
  | enumsAsText {a : Accessor α} (ha : StoringTyped a) : StoringTyped a.enumsAsText
  | withComputedKey {a : Accessor α} (type : SimpleType) (key : α → Except Failure Value)
      (ha : StoringTyped a) (hname : entityId ∉ a.fields.map (·.name))
      : StoringTyped (a.withComputedKey type key)

/-- The item that a collection field has if it is given just one value. -/
def Keeps (a : Accessor α) (name : String) (v w : FieldValue α) : Prop :=
  ∃ data data', a.setAll data name [v] = .ok data' ∧ a.getAll data' name = .ok (some [w])

/-- The field has the same nested record, or the same items, in two records. -/
structure SameNested (a : Accessor α) (name : String) (data data' : α) : Prop where
  get : ∀ shape, a.fieldType? name = some (.record shape) → a.get data name = a.get data' name
  getAll : a.getAll data name = a.getAll data' name

theorem SameNested.refl (a : Accessor α) (name : String) (data : α) : a.SameNested name data data :=
  ⟨fun _ _ => rfl, rfl⟩

theorem SameNested.trans {a : Accessor α} {name : String} {data data' data'' : α}
    (h : a.SameNested name data data') (h' : a.SameNested name data' data'')
    : a.SameNested name data data'' where
  get shape htype := (h.get shape htype).trans (h'.get shape htype)
  getAll := h.getAll.trans h'.getAll

/-- Nested records and items are read as they were written, whatever is written to other fields. -/
structure Storing (a : Accessor α) : Prop where
  names : (a.fields.map (·.name)).Nodup
  set_record : ∀ data data' name r, a.set data name (.record r) = .ok data' →
    a.fieldType? name = some (.record r.shape) → a.get data' name = .ok (.record r)
  set_others : ∀ data data' name v, a.set data name v = .ok data' →
    ∀ other, other ≠ name → a.SameNested other data data'
  setAll_items : ∀ data data' name vs, a.setAll data name vs = .ok data' →
    ∃ type elements,
      a.itemType? name = some type
        ∧
      a.getAll data' name = .ok (some elements)
        ∧
      List.Forall₂ (a.Keeps name) (vs.filter type.hasItem) elements
  setAll_others : ∀ data data' name vs, a.setAll data name vs = .ok data' →
    ∀ other, other ≠ name → a.SameNested other data data'
  keeps_record : ∀ name r w, a.Keeps name (.record r) w →
    a.itemType? name = some (.record r.shape) → w = .record r

end Accessor

/-! ### Typed records -/

namespace Member.Storing

variable {members : List (Member α τ)} {m : Member α τ} {t t' : τ}

theorem single (h : m.Storing members) {get : τ → FieldValue α}
    {set : τ → FieldValue α → Except Failure τ} {v : FieldValue α}
    (hslot : m.slot = .single get set) (hset : set t v = .ok t')
    : AgreeBut members m.field.name t t' := by
  induction h with
  | simple hothers =>
    cases hslot
    obtain ⟨x, _, hset⟩ := bind_eq_ok.mp hset
    cases hset
    exact hothers t x
  | enumeration hothers =>
    cases hslot
    obtain ⟨member, _, hset⟩ := bind_eq_ok.mp hset
    exact hothers t member t' hset
  | record _ _ hothers =>
    cases hslot
    obtain ⟨x, _, hset⟩ := bind_eq_ok.mp hset
    cases hset
    exact hothers t x
  | simples => cases hslot
  | records => cases hslot
  | notNull _ ih => exact ih hslot

theorem single_record (h : m.Storing members) {get : τ → FieldValue α}
    {set : τ → FieldValue α → Except Failure τ} {r : Record α} (hslot : m.slot = .single get set)
    (htype : m.field.type = .record r.shape) (hset : set t (.record r) = .ok t')
    : get t' = .record r := by
  induction h with
  | simple => cases htype
  | enumeration => cases htype
  | @record _ _ _ k _ _ hk hget _ =>
    cases hslot
    cases htype
    obtain ⟨x, hx, hset⟩ := bind_eq_ok.mp hset
    cases hset
    simp only [Kind.extract] at hx
    split at hx
    . next hproject =>
      cases hx
      simp only [hget, hk _ _ hproject]
    . cases hx
  | simples => cases hslot
  | records => cases hslot
  | notNull _ ih => exact ih hslot htype

theorem collection_of_many (h : m.Storing members) {get : τ → List (FieldValue α)}
    {set : τ → List (FieldValue α) → Except Failure τ} (hslot : m.slot = .many get set)
    : m.field.collection = true := by
  induction h with
  | simple | enumeration | record => cases hslot
  | simples | records => rfl
  | notNull _ ih => exact ih hslot

theorem many (h : m.Storing members) {get : τ → List (FieldValue α)}
    {set : τ → List (FieldValue α) → Except Failure τ} {vs : List (FieldValue α)}
    (hslot : m.slot = .many get set) (hset : set t vs = .ok t')
    : AgreeBut members m.field.name t t' := by
  induction h with
  | simple | enumeration | record => cases hslot
  | simples _ hothers =>
    cases hslot
    obtain ⟨xs, _, hset⟩ := bind_eq_ok.mp hset
    cases hset
    exact hothers t xs
  | records _ _ hothers =>
    cases hslot
    obtain ⟨xs, _, hset⟩ := bind_eq_ok.mp hset
    cases hset
    exact hothers t _
  | notNull _ ih => exact ih hslot

theorem many_record (h : m.Storing members) {get : τ → List (FieldValue α)}
    {set : τ → List (FieldValue α) → Except Failure τ} {r : Record α}
    (hslot : m.slot = .many get set) (htype : m.field.type = .record r.shape)
    (hset : set t [.record r] = .ok t')
    : get t' = [.record r] := by
  induction h with
  | simple | enumeration | record => cases hslot
  | simples => cases htype
  | @records _ _ _ k _ _ hk hget _ =>
    cases hslot
    cases htype
    obtain ⟨opts, hopts, hset⟩ := bind_eq_ok.mp hset
    cases hset
    rw [mapM_eq_ok, List.forall₂_cons_left_iff] at hopts
    obtain ⟨x, _, hx, hnil, rfl⟩ := hopts
    cases hnil
    simp only [Kind.extract] at hx
    split at hx
    . next hproject =>
      cases hx
      simp [hget, hk _ _ hproject]
    . cases hx
  | notNull _ ih => exact ih hslot htype

theorem forall₂_extract {ρ : Type} {k : Kind α ρ} {shape : Shape} {vs : List (FieldValue α)}
    {xs : List (Option ρ)} (h : vs.mapM k.extract = .ok xs)
    : List.Forall₂ (fun v x => k.extract v = .ok (some x))
        (vs.filter (FieldType.record shape).hasItem) (xs.filterMap id) := by
  rw [mapM_eq_ok] at h
  induction h with
  | nil => exact .nil
  | @cons v x vs xs hx _ ih =>
    cases v with
    | null =>
      cases hx
      exact ih
    | record r =>
      simp only [Kind.extract] at hx
      split at hx
      . next hproject =>
        cases hx
        refine .cons ?_ ih
        simp only [Kind.extract, hproject]
      . cases hx
    | simple | enum => cases hx

/-- The items of a collection are those that each value would be on its own. -/
theorem many_items (h : m.Storing members) {get : τ → List (FieldValue α)}
    {set : τ → List (FieldValue α) → Except Failure τ} {vs : List (FieldValue α)}
    (hslot : m.slot = .many get set) (hset : set t vs = .ok t')
    : List.Forall₂ (fun v w => ∃ t', set t [v] = .ok t' ∧ get t' = [w])
        (vs.filter m.field.type.hasItem) (get t') := by
  induction h with
  | simple | enumeration | record => cases hslot
  | @simples _ _ type sc _ _ hget _ =>
    cases hslot
    obtain ⟨xs, hxs, hset⟩ := bind_eq_ok.mp hset
    cases hset
    have hall : vs.filter (FieldType.simple type).hasItem = vs :=
      List.filter_eq_self.mpr fun v _ => rfl
    change List.Forall₂ _ (vs.filter (FieldType.simple type).hasItem) _
    dsimp only
    rw [hall, hget, List.forall₂_map_right_iff]
    refine (mapM_eq_ok.mp hxs).imp ?_
    intro v x hx
    have hone : [v].mapM sc.extract = .ok [x] := mapM_eq_ok.mpr (.cons hx .nil)
    refine ⟨_, by rw [hone]; rfl, ?_⟩
    rw [hget]
    rfl
  | @records _ _ shape k _ _ _ hget _ =>
    cases hslot
    obtain ⟨opts, hopts, hset⟩ := bind_eq_ok.mp hset
    cases hset
    change List.Forall₂ _ (vs.filter (FieldType.record shape).hasItem) _
    dsimp only
    rw [hget, List.forall₂_map_right_iff]
    refine (forall₂_extract hopts).imp ?_
    intro v x hx
    have hone : [v].mapM k.extract = .ok [some x] := mapM_eq_ok.mpr (.cons hx .nil)
    refine ⟨_, by rw [hone]; rfl, ?_⟩
    rw [hget]
    rfl
  | notNull _ ih => exact ih hslot

end Member.Storing

namespace Accessor

section

variable {k : Kind α τ} {empty : τ} {members : List (Member α τ)} {data data' : α} {name : String}

theorem exists_of_findMember {slot : Slot α τ} (h : findMember k members name = .ok slot)
    : ∃ m ∈ members,
        m.field.name = name
          ∧
        m.slot = slot
          ∧
        (typed k empty members).field? name = some m.field := by
  unfold findMember at h
  split at h
  . next m hm =>
    cases h
    refine ⟨m, List.mem_of_find?_eq_some hm, by simpa using List.find?_some hm, rfl, ?_⟩
    unfold field? typed
    dsimp
    rw [List.find?_map]
    exact congrArg (Option.map (·.field)) hm
  . cases h

theorem exists_inject (hk : k.Exact) {t : τ} (h : projectOrFail k data = .ok t)
    : data = k.inject t := by
  unfold projectOrFail at h
  split at h
  . next t' ht' =>
    cases h
    exact (hk _ _ ht').symm
  . cases h

theorem typed_set_eq_ok (hk : k.Exact) {v : FieldValue α}
    (h : (typed k empty members).set data name v = .ok data')
    : ∃ m ∈ members, ∃ get set t t',
        m.field.name = name
          ∧
        (typed k empty members).field? name = some m.field
          ∧
        m.slot = .single get set
          ∧
        set t v = .ok t'
          ∧
        data = k.inject t
          ∧
        data' = k.inject t' := by
  obtain ⟨slot, hslot, h⟩ := bind_eq_ok.mp h
  obtain ⟨t, ht, h⟩ := bind_eq_ok.mp h
  obtain ⟨m, hm, hname, rfl, hfield⟩ := exists_of_findMember hslot
  cases hsingle : m.slot with
  | single get set =>
    rw [hsingle] at h
    obtain ⟨t', ht', h⟩ := bind_eq_ok.mp h
    exact ⟨m, hm, get, set, t, t', hname, hfield, hsingle, ht', exists_inject hk ht,
      (pure_eq_ok.mp h).symm⟩
  | many get set =>
    rw [hsingle] at h
    cases h

theorem typed_setAll_eq_ok (hk : k.Exact) {vs : List (FieldValue α)}
    (h : (typed k empty members).setAll data name vs = .ok data')
    : ∃ m ∈ members, ∃ get set t t',
        m.field.name = name
          ∧
        (typed k empty members).field? name = some m.field
          ∧
        m.slot = .many get set
          ∧
        set t vs = .ok t'
          ∧
        data = k.inject t
          ∧
        data' = k.inject t' := by
  obtain ⟨slot, hslot, h⟩ := bind_eq_ok.mp h
  obtain ⟨t, ht, h⟩ := bind_eq_ok.mp h
  obtain ⟨m, hm, hname, rfl, hfield⟩ := exists_of_findMember hslot
  cases hmany : m.slot with
  | single get set =>
    rw [hmany] at h
    cases h
  | many get set =>
    rw [hmany] at h
    obtain ⟨t', ht', h⟩ := bind_eq_ok.mp h
    exact ⟨m, hm, get, set, t, t', hname, hfield, hmany, ht', exists_inject hk ht,
      (pure_eq_ok.mp h).symm⟩

theorem SameAt.sameNested {a : Accessor α} (h : a.SameAt name data data')
    : a.SameNested name data data' where
  get _ _ := h.1
  getAll := h.2

theorem typed_storing (hk : k.Exact) (hnames : (members.map (·.field.name)).Nodup)
    (hmembers : ∀ m ∈ members, m.Storing members) : (typed k empty members).Storing where
  names := by
    unfold typed
    dsimp
    rw [List.map_map]
    exact hnames
  set_record := by
    intro data data' name r h htype
    obtain ⟨m, hm, get, set, t, t', rfl, hfield, hslot, hset, rfl, rfl⟩ := typed_set_eq_ok hk h
    have hrecord : m.field.type = .record r.shape := by
      simp only [fieldType?, hfield, Option.bind_some] at htype
      split at htype
      . cases htype
      . exact Option.some.inj htype
    rw [typed_get hnames hm hslot, (hmembers m hm).single_record hslot hrecord hset]
  set_others := by
    intro data data' name v h other hother
    obtain ⟨m, hm, get, set, t, t', rfl, _, hslot, hset, rfl, rfl⟩ := typed_set_eq_ok hk h
    apply SameAt.sameNested
    apply typed_sameAt
    rintro m' hm' rfl
    exact (hmembers m hm).single hslot hset m' hm' hother
  setAll_items := by
    intro data data' name vs h
    obtain ⟨m, hm, get, set, t, t', rfl, hfield, hslot, hset, rfl, rfl⟩ := typed_setAll_eq_ok hk h
    refine ⟨m.field.type, get t', ?_, typed_getAll hnames hm hslot t', ?_⟩
    . rw [itemType?, hfield, Option.bind_some, if_pos ((hmembers m hm).collection_of_many hslot)]
    . refine ((hmembers m hm).many_items hslot hset).imp ?_
      rintro v w ⟨t'', hset, hget⟩
      refine ⟨_, _, typed_setAll hnames hm hslot hset, ?_⟩
      rw [typed_getAll hnames hm hslot, hget]
  setAll_others := by
    intro data data' name vs h other hother
    obtain ⟨m, hm, get, set, t, t', rfl, _, hslot, hset, rfl, rfl⟩ := typed_setAll_eq_ok hk h
    apply SameAt.sameNested
    apply typed_sameAt
    rintro m' hm' rfl
    exact (hmembers m hm).many hslot hset m' hm' hother
  keeps_record := by
    rintro name r w ⟨data, data', h, hw⟩ htype
    obtain ⟨m, hm, get, set, t, t', rfl, hfield, hslot, hset, rfl, rfl⟩ := typed_setAll_eq_ok hk h
    have hrecord : m.field.type = .record r.shape := by
      simp only [itemType?, hfield, Option.bind_some] at htype
      split at htype
      . exact Option.some.inj htype
      . cases htype
    rw [typed_getAll hnames hm hslot, (hmembers m hm).many_record hslot hrecord hset] at hw
    cases hw
    rfl

end

/-! ### Computed keys -/

section

variable {a : Accessor α} {type : SimpleType} {key : α → Except Failure Value} {name : String}
  {data data' : α}

theorem field?_withComputedKey (hname : name ≠ entityId)
    : (a.withComputedKey type key).field? name = a.field? name := by
  unfold field? withComputedKey
  dsimp
  rw [List.find?_cons_of_neg (by simpa using hname.symm)]

theorem ne_of_fieldType?_withComputedKey {shape : Shape}
    (h : (a.withComputedKey type key).fieldType? name = some (.record shape))
    : name ≠ entityId := by
  rintro rfl
  cases h

theorem itemType?_withComputedKey (hname : entityId ∉ a.fields.map (·.name)) (name : String)
    : (a.withComputedKey type key).itemType? name = a.itemType? name := by
  unfold itemType?
  by_cases heq : name = entityId
  . have hnone : a.field? name = none := by
      unfold field?
      rw [List.find?_eq_none]
      intro f hf hfound
      apply hname
      rw [← heq, ← beq_iff_eq.mp hfound]
      exact List.mem_map_of_mem hf
    rw [hnone, heq]
    rfl
  . rw [field?_withComputedKey heq]

theorem SameNested.withComputedKey (h : a.SameNested name data data')
    : (a.withComputedKey type key).SameNested name data data' where
  get shape htype := by
    have hname := ne_of_fieldType?_withComputedKey htype
    rw [fieldType?, field?_withComputedKey hname] at htype
    rw [withComputedKey_get hname, withComputedKey_get hname, h.get shape htype]
  getAll := h.getAll

theorem Storing.withComputedKey (ha : a.Storing) (type : SimpleType)
    (key : α → Except Failure Value) (hname : entityId ∉ a.fields.map (·.name))
    : (a.withComputedKey type key).Storing where
  names := List.nodup_cons.mpr ⟨hname, ha.names⟩
  set_record := by
    intro data data' name r h htype
    have hname := ne_of_fieldType?_withComputedKey htype
    rw [fieldType?, field?_withComputedKey hname] at htype
    rw [withComputedKey_set hname] at h
    rw [withComputedKey_get hname]
    exact ha.set_record data data' name r h htype
  set_others := by
    intro data data' name v h other hother
    by_cases hkey : name = entityId
    . rw [hkey, (hasComputedKey_withComputedKey type key).set] at h
      cases h
      exact .refl _ other data
    . rw [withComputedKey_set hkey] at h
      exact (ha.set_others data data' name v h other hother).withComputedKey
  setAll_items := by
    intro data data' name vs h
    obtain ⟨itemType, elements, htype, hread, hitems⟩ := ha.setAll_items data data' name vs h
    exact ⟨itemType, elements, (itemType?_withComputedKey hname name).trans htype, hread, hitems⟩
  setAll_others := by
    intro data data' name vs h other hother
    exact (ha.setAll_others data data' name vs h other hother).withComputedKey
  keeps_record := by
    intro name r w h htype
    rw [itemType?_withComputedKey hname] at htype
    exact ha.keeps_record name r w h htype

end

/-! ### Enumerations as texts -/

section

variable {a : Accessor α} {name : String} {data data' : α}

/-- A value as it is written to a field whose enumerations are texts. -/
def written (a : Accessor α) (name : String) (v : FieldValue α) : FieldValue α :=
  if (a.field? name).any (·.type.isEnumeration) then v.textToEnum else v

theorem written_record (a : Accessor α) (name : String) (r : Record α)
    : a.written name (.record r) = .record r := by
  unfold written
  split <;> rfl

theorem hasItem_written (a : Accessor α) (name : String) (type : FieldType) (v : FieldValue α)
    : type.hasItem (a.written name v) = type.hasItem v := by
  unfold written
  split
  . cases v with
    | simple v => cases v <;> cases type <;> rfl
    | _ => rfl
  . rfl

theorem enumsAsText_setAll_eq (vs : List (FieldValue α))
    : a.enumsAsText.setAll data name vs = a.setAll data name (vs.map (a.written name)) := by
  unfold enumsAsText written
  dsimp
  split
  . rfl
  . rw [List.map_id']

theorem enumsAsText_field? (a : Accessor α) (name : String)
    : a.enumsAsText.field? name = (a.field? name).map textField := by
  unfold field?
  rw [enumsAsText_fields, List.find?_map]
  simp only [Function.comp_def, textField_name]

/-- The type of a field in which the members of an enumeration are texts. -/
def textType (type : FieldType) : FieldType :=
  if type.isEnumeration then .simple .string else type

theorem textField_type (f : Field) : (textField f).type = textType f.type := by
  unfold textField textType
  split <;> rfl

theorem textType_eq_record {type : FieldType} {shape : Shape} (h : textType type = .record shape)
    : type = .record shape := by
  unfold textType at h
  split at h
  . cases h
  . exact h

theorem hasItem_textType (type : FieldType) (v : FieldValue α)
    : (textType type).hasItem v = type.hasItem v := by
  cases type <;> rfl

theorem enumsAsText_fieldType? (a : Accessor α) (name : String)
    : a.enumsAsText.fieldType? name = (a.fieldType? name).map textType := by
  unfold fieldType?
  rw [enumsAsText_field?]
  cases a.field? name with
  | none => rfl
  | some f =>
    simp only [Option.map_some, Option.bind_some, textField_collection, textField_type]
    split <;> rfl

theorem enumsAsText_itemType? (a : Accessor α) (name : String)
    : a.enumsAsText.itemType? name = (a.itemType? name).map textType := by
  unfold itemType?
  rw [enumsAsText_field?]
  cases a.field? name with
  | none => rfl
  | some f =>
    simp only [Option.map_some, Option.bind_some, textField_collection, textField_type]
    split <;> rfl

theorem eq_record_of_map {type? : Option FieldType} {shape : Shape}
    (h : type?.map textType = some (.record shape)) : type? = some (.record shape) := by
  obtain ⟨type, rfl, htype⟩ := Option.map_eq_some_iff.mp h
  rw [textType_eq_record htype]

theorem Keeps.enumsAsText {v w : FieldValue α} (h : a.Keeps name (a.written name v) w)
    : a.enumsAsText.Keeps name v w.enumToText := by
  obtain ⟨data, data', hset, hread⟩ := h
  refine ⟨data, data', ?_, enumsAsText_getAll hread⟩
  rw [enumsAsText_setAll_eq]
  exact hset

theorem Keeps.exists_of_enumsAsText {v w : FieldValue α} (h : a.enumsAsText.Keeps name v w)
    : ∃ w', a.Keeps name (a.written name v) w' ∧ w = w'.enumToText := by
  obtain ⟨data, data', hset, hread⟩ := h
  rw [enumsAsText_setAll_eq] at hset
  obtain ⟨ws?, hws, hread⟩ := bind_eq_ok.mp hread
  cases ws? with
  | none => cases hread
  | some ws =>
    match ws, hread with
    | [w'], hread =>
      cases hread
      exact ⟨w', ⟨data, data', hset, hws⟩, rfl⟩

theorem SameNested.enumsAsText (h : a.SameNested name data data')
    : a.enumsAsText.SameNested name data data' where
  get shape htype := by
    rw [enumsAsText_fieldType?] at htype
    have hget := h.get shape (eq_record_of_map htype)
    unfold Accessor.enumsAsText
    dsimp
    rw [hget]
  getAll := by
    unfold Accessor.enumsAsText
    dsimp
    rw [h.getAll]

theorem Storing.enumsAsText (ha : a.Storing) : a.enumsAsText.Storing where
  names := by
    have hnames : (fun f : Field => f.name) ∘ textField = (·.name) := by
      funext f
      exact textField_name f
    rw [enumsAsText_fields, List.map_map, hnames]
    exact ha.names
  set_record := by
    intro data data' name r h htype
    change a.set data name (a.written name (.record r)) = .ok data' at h
    rw [written_record] at h
    rw [enumsAsText_fieldType?] at htype
    exact enumsAsText_get (ha.set_record data data' name r h (eq_record_of_map htype))
  set_others := by
    intro data data' name v h other hother
    exact (ha.set_others data data' name _ h other hother).enumsAsText
  setAll_items := by
    intro data data' name vs h
    rw [enumsAsText_setAll_eq] at h
    obtain ⟨type, elements, htype, hread, hitems⟩ := ha.setAll_items data data' name _ h
    refine ⟨textType type, elements.map .enumToText, ?_, enumsAsText_getAll hread, ?_⟩
    . rw [enumsAsText_itemType?, htype, Option.map_some]
    . rw [List.filter_map, List.forall₂_map_left_iff] at hitems
      simp only [Function.comp_def, hasItem_written, ← hasItem_textType type] at hitems
      rw [List.forall₂_map_right_iff]
      exact hitems.imp fun v w => Keeps.enumsAsText
  setAll_others := by
    intro data data' name vs h other hother
    exact (ha.setAll_others data data' name _ h other hother).enumsAsText
  keeps_record := by
    intro name r w h htype
    obtain ⟨w', hkeeps, rfl⟩ := h.exists_of_enumsAsText
    rw [written_record] at hkeeps
    rw [enumsAsText_itemType?] at htype
    rw [ha.keeps_record name r w' hkeeps (eq_record_of_map htype)]
    rfl

end

theorem StoringTyped.storing {a : Accessor α} (h : a.StoringTyped) : a.Storing := by
  induction h with
  | typed hk hnames hmembers => exact typed_storing hk hnames hmembers
  | enumsAsText _ ih => exact ih.enumsAsText
  | withComputedKey type key _ hname ih => exact ih.withComputedKey type key hname

end Accessor

end Edm
