import Edm.Model.Generate
import Edm.Proofs.Outcome
import Edm.Proofs.Registrations

/-!
This module contains the laws of the models that follow from registrations: which properties and
navigations come from which fields, and that the records of the sets do not matter.
-/

namespace Edm.Registry

variable {α : Type}

section

variable {r : Registry α} {namespace_ : String} {pending : List Shape} {shape : Shape}
  {made : MadeTypes} {e : ComplexEntry α}

theorem complexType_of_lookup {t : ComplexType} (hmade : made.lookup shape = some t)
    : r.complexType namespace_ pending shape made = (some t, made) := by
  rw [complexType, hmade]

theorem complexType_of_none (hmade : made.lookup shape = none)
    (he : r.complexOfShape? shape = none)
    : r.complexType namespace_ pending shape made = (none, made) := by
  rw [complexType, hmade]
  dsimp
  split
  . rfl
  . next h => rw [he] at h; cases h

theorem complexType_of_mem (hmade : made.lookup shape = none) (hpending : shape ∈ pending)
    : r.complexType namespace_ pending shape made = (none, made) := by
  rw [complexType, hmade]
  dsimp
  split
  . rfl
  . rw [if_pos hpending]

theorem complexType_of_not_mem {properties : List Property} {made' : MadeTypes}
    (hmade : made.lookup shape = none) (he : r.complexOfShape? shape = some e)
    (hpending : shape ∉ pending)
    (hproperties : r.propertiesOf namespace_ (shape :: pending) e.accessor.fields made
      = (properties, made'))
    : r.complexType namespace_ pending shape made
        = (some ⟨namespace_, e.typeName, properties⟩,
          (shape, ⟨namespace_, e.typeName, properties⟩) :: made') := by
  rw [complexType, hmade]
  dsimp
  split
  . next h => rw [he] at h; cases h
  . next h =>
    rw [he] at h
    cases h
    rw [if_neg hpending, hproperties]

end

/-! ### Records do not matter -/

section

variable {r : Registry α} {sets : List (SetEntry α)} {namespace_ : String}

theorem complexTypes_only
    : (∀ pending shape made, complexType { r with sets } namespace_ pending shape made
        = complexType r namespace_ pending shape made)
      ∧ (∀ pending fields made, propertiesOf { r with sets } namespace_ pending fields made
        = propertiesOf r namespace_ pending fields made)
      ∧ ∀ pending f made, propertyOf { r with sets } namespace_ pending f made
        = propertyOf r namespace_ pending f made := by
  apply complexType.mutual_induct r namespace_
  . intro pending shape made t hmade
    rw [complexType_of_lookup hmade, complexType_of_lookup hmade]
  . intro pending shape made hmade he
    rw [complexType_of_none hmade he]
    exact complexType_of_none hmade he
  . intro pending shape made hmade e he hpending
    rw [complexType_of_mem (r := r) hmade hpending]
    exact complexType_of_mem hmade hpending
  . intro pending shape made hmade e he hpending properties made' hproperties ih
    rw [complexType_of_not_mem hmade he hpending hproperties]
    rw [hproperties] at ih
    exact complexType_of_not_mem hmade he hpending ih
  . intro pending made
    rw [propertiesOf, propertiesOf]
  . intro pending made f fields property made' hproperty properties made'' hproperties ihf ihfields
    rw [propertiesOf, propertiesOf, ihf, hproperty]
    dsimp
    rw [ihfields]
  . intro pending f made item made' hitem ih
    rw [propertyOf, propertyOf]
    cases hf : f.type with
    | simple t => rfl
    | enumeration name => rfl
    | record shape =>
      dsimp
      rw [ih shape]

theorem navigation?_setRecords (name : String) (records : List (Record α)) (f : Field)
    : (r.setRecords name records).navigation? f = r.navigation? f := by
  unfold navigation? setOfShape?
  rw [setRecords_eq]
  cases f.type with
  | simple t => rfl
  | enumeration enum => rfl
  | record shape =>
    dsimp
    rw [List.find?_map, Option.map_map]
    rfl

theorem entityType_setRecords (name : String) (records others : List (Record α)) (e : SetEntry α)
    (made : MadeTypes)
    : (r.setRecords name records).entityType namespace_ { e with records := others } made
        = r.entityType namespace_ e made := by
  have hnavigation : (r.setRecords name records).navigation? = r.navigation? := by
    funext f
    exact navigation?_setRecords name records f
  have hproperties : (r.setRecords name records).propertiesOf namespace_
      = r.propertiesOf namespace_ := by
    funext pending fields made
    rw [setRecords_eq]
    exact complexTypes_only.2.1 pending fields made
  unfold entityType
  rw [hnavigation, hproperties]

theorem entitySets_setRecords (name : String) (records : List (Record α)) (es : List (SetEntry α))
    (made : MadeTypes)
    : (r.setRecords name records).entitySets namespace_
          (es.map fun e => { e with records := if e.name == name then records else e.records }) made
        = r.entitySets namespace_ es made := by
  induction es generalizing made with
  | nil => rfl
  | cons e es ih =>
    rw [List.map_cons, entitySets, entitySets, entityType_setRecords]
    congr 1
    funext ⟨t, made⟩
    dsimp
    rw [ih]

theorem complexTypesOf_setRecords (name : String) (records : List (Record α))
    (es : List (ComplexEntry α)) (made : MadeTypes)
    : (r.setRecords name records).complexTypesOf namespace_ es made
        = r.complexTypesOf namespace_ es made := by
  induction es generalizing made with
  | nil => rfl
  | cons e es ih =>
    have htype : (r.setRecords name records).complexType namespace_ [] e.shape made
        = r.complexType namespace_ [] e.shape made := by
      rw [setRecords_eq]
      exact complexTypes_only.1 [] e.shape made
    rw [complexTypesOf, complexTypesOf, htype]
    dsimp
    rw [ih]

theorem generate_setRecords (name : String) (records : List (Record α)) (config : Config)
    : (r.setRecords name records).generate config = r.generate config := by
  have hsets : (r.setRecords name records).entitySets config.namespace_
      (r.setRecords name records).sets [] = r.entitySets config.namespace_ r.sets [] := by
    rw [← entitySets_setRecords name records r.sets, setRecords_eq]
  have hcomplex : (r.setRecords name records).complexTypes = r.complexTypes := rfl
  unfold generate
  rw [hsets, hcomplex]
  congr 1
  funext ⟨sets, made⟩
  dsimp
  rw [complexTypesOf_setRecords]

end

/-! ### What types are made of -/

section

variable {r : Registry α} {namespace_ : String}

inductive ItemOf (r : Registry α) : FieldType → ItemType → Prop where
  | simple (t : SimpleType) : ItemOf r (.simple t) (.simple t)
  | complex {shape : Shape} {e : ComplexEntry α} {t : ComplexType}
      (he : r.complexOfShape? shape = some e) (hname : t.name = e.typeName)
      : ItemOf r (.record shape) (.complex t)

structure Declares (r : Registry α) (f : Field) (p : Property) : Prop where
  name : p.name = f.name
  type : ∃ item,
    ItemOf r f.type item
      ∧
    p.type = if f.collection then .collection .list item else .single item

def DeclaresAll (r : Registry α) (fields : List Field) (properties : List Property) : Prop :=
  List.SublistForall₂ (fun p f => r.Declares f p) properties fields

structure TypeOf (r : Registry α) (shape : Shape) (e : ComplexEntry α) (t : ComplexType) :
    Prop where
  entry : r.complexOfShape? shape = some e
  name : t.name = e.typeName
  properties : r.DeclaresAll e.accessor.fields t.properties

theorem Declares.asKeyOf {f : Field} {p : Property} (keys : List String) (h : r.Declares f p)
    : r.Declares f (Property.asKeyOf keys p) := by
  unfold Property.asKeyOf
  split
  . exact ⟨h.name, h.type⟩
  . exact h

theorem DeclaresAll.asKeyOf {fields : List Field} {properties : List Property} (keys : List String)
    (h : r.DeclaresAll fields properties)
    : r.DeclaresAll fields (properties.map (Property.asKeyOf keys)) := by
  induction h with
  | nil => exact .nil
  | cons hp _ ih => exact .cons (hp.asKeyOf keys) ih
  | cons_right _ ih => exact .cons_right ih

theorem DeclaresAll.filter {fields : List Field} {properties : List Property} {b : Field → Bool}
    (h : r.DeclaresAll (fields.filter b) properties) : r.DeclaresAll fields properties := by
  induction fields generalizing properties with
  | nil => exact h
  | cons f fields ih =>
    rw [List.filter_cons] at h
    split at h
    . cases h with
      | nil => exact .nil
      | cons hp h => exact .cons hp (ih h)
      | cons_right h => exact .cons_right (ih h)
    . exact .cons_right (ih h)

theorem DeclaresAll.names {fields : List Field} {properties : List Property}
    (h : r.DeclaresAll fields properties)
    : (properties.map (·.name)).Sublist (fields.map (·.name)) := by
  induction h with
  | nil => exact List.nil_sublist _
  | cons hp _ ih =>
    rw [List.map_cons, List.map_cons, hp.name]
    exact ih.cons_cons _
  | cons_right _ ih => exact ih.cons _

theorem DeclaresAll.exists_field {fields : List Field} {properties : List Property} {p : Property}
    (h : r.DeclaresAll fields properties) (hp : p ∈ properties)
    : ∃ f ∈ fields, r.Declares f p := by
  induction h with
  | nil => cases hp
  | @cons p' f properties fields hp' _ ih =>
    rcases List.mem_cons.mp hp with rfl | hp
    . exact ⟨f, by simp, hp'⟩
    . obtain ⟨f', hf', hp⟩ := ih hp
      exact ⟨f', by simp [hf'], hp⟩
  | cons_right _ ih =>
    obtain ⟨f', hf', hp⟩ := ih hp
    exact ⟨f', by simp [hf'], hp⟩

/-! ### The whole model -/

structure EntityTypeOf (r : Registry α) (e : SetEntry α) (t : EntityType) : Prop where
  name : t.name = e.typeName
  keys : t.keys = e.keys
  properties :
    r.DeclaresAll (e.accessor.fields.filter fun f => (r.navigation? f).isNone) t.properties
  navigations : t.navigations = e.accessor.fields.filterMap r.navigation?

theorem exists_of_navigation? {f : Field} {n : Navigation} (h : r.navigation? f = some n)
    : ∃ shape e,
        f.type = .record shape
          ∧
        r.setOfShape? shape = some e
          ∧
        n.name = f.name
          ∧
        n.multiplicity.isMany = f.collection
          ∧
        n.target = e.typeName := by
  unfold navigation? at h
  split at h
  . next shape hshape =>
    obtain ⟨e, he, rfl⟩ := Option.map_eq_some_iff.mp h
    refine ⟨shape, e, hshape, he, rfl, ?_, rfl⟩
    cases f.collection <;> rfl
  . cases h

theorem names_of_navigations {fields : List Field}
    : ((fields.filterMap r.navigation?).map (·.name)).Sublist (fields.map (·.name)) := by
  induction fields with
  | nil => exact .slnil
  | cons f fields ih =>
    rw [List.filterMap_cons]
    split
    . exact ih.cons f.name
    . next n hn =>
      obtain ⟨_, _, _, _, hname, _⟩ := exists_of_navigation? hn
      rw [List.map_cons, List.map_cons, hname]
      exact ih.cons_cons f.name

theorem EntityTypeOf.ne_of_mem {e : SetEntry α} {t : EntityType} (hof : r.EntityTypeOf e t)
    (hnodup : (e.accessor.fields.map (·.name)).Nodup) {p : Property} {n : Navigation}
    (hp : p ∈ t.properties) (hn : n ∈ t.navigations) : p.name ≠ n.name := by
  intro hname
  rw [hof.navigations] at hn
  obtain ⟨f, hf, hfn⟩ := List.mem_filterMap.mp hn
  obtain ⟨f', hf', hfp⟩ := hof.properties.exists_field hp
  obtain ⟨hf', hnone⟩ := List.mem_filter.mp hf'
  obtain ⟨_, _, _, _, hnamef, _⟩ := exists_of_navigation? hfn
  have hsame : f.name = f'.name := by
    rw [← hnamef, ← hname, hfp.name]
  rw [← List.inj_on_of_nodup_map hnodup hf hf' hsame, hfn] at hnone
  cases hnone

theorem create_eq_ok {name : String} {keys : List String} {properties : List Property}
    {navigations : List Navigation} {t : EntityType}
    (h : EntityType.create namespace_ name keys properties navigations = .ok t)
    : t = ⟨namespace_, name, keys, properties, navigations⟩ := by
  unfold EntityType.create at h
  split at h
  . cases h
  . split at h
    . cases h
    . cases h
      rfl

theorem complexType_isSome {pending : List Shape} {shape : Shape} {made : MadeTypes}
    {e : ComplexEntry α} (he : r.complexOfShape? shape = some e) (hpending : shape ∉ pending)
    : ∃ t, (r.complexType namespace_ pending shape made).1 = some t := by
  cases hmade : made.lookup shape with
  | some t => exact ⟨t, by rw [complexType_of_lookup hmade]⟩
  | none => exact ⟨_, by rw [complexType_of_not_mem hmade he hpending rfl]⟩

theorem exists_of_create {config : Config} {sets : List EntitySet} {types : List ComplexType}
    {m : Model} (h : Model.create config.namespace_ config.containerName sets types = .ok m)
    : m.namespace_ = config.namespace_
        ∧
      m.containerName = config.containerName
        ∧
      m.sets = sets
        ∧
      m.complexTypes = types := by
  unfold Model.create at h
  obtain ⟨⟨_⟩, _, h⟩ := bind_eq_ok.mp h
  obtain ⟨⟨_⟩, _, h⟩ := bind_eq_ok.mp h
  obtain ⟨⟨_⟩, _, h⟩ := bind_eq_ok.mp h
  cases h
  exact ⟨rfl, rfl, rfl, rfl⟩

end

end Edm.Registry
