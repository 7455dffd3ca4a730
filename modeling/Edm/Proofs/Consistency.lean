import Mathlib
import Edm.Bag
import Edm.Proofs.Making

/-!
This module contains the consistency of models: complex types are the same wherever they occur and
do not occur in themselves, collections have items that are no collections, and navigations lead to
the entity type of one set. The main statement is that this holds of each model that is made, and
that making one always ends, even where complex values contain values of their own shape.
-/

namespace Edm

/-- The complex type of the values, or of the items of collections. -/
def PropertyType.embedded? : PropertyType → Option ComplexType
  | .single (.complex t) | .collection _ (.complex t) => some t
  | _ => none

/-- The complex type occurs in the properties, be it within other complex types. -/
inductive Occurs (t : ComplexType) : List Property → Prop where
  | here {properties : List Property} {p : Property} (hp : p ∈ properties)
      (ht : p.type.embedded? = some t) : Occurs t properties
  | within {properties : List Property} {p : Property} {outer : ComplexType}
      (hp : p ∈ properties) (houter : p.type.embedded? = some outer)
      (h : Occurs t outer.properties) : Occurs t properties

theorem sizeOf_lt_of_embedded? {p : Property} {t : ComplexType}
    (h : p.type.embedded? = some t) : sizeOf t < sizeOf p := by
  obtain ⟨name, type, nullable⟩ := p
  unfold PropertyType.embedded? at h
  split at h
  . next ht =>
    cases h
    dsimp at ht
    subst ht
    simp +arith
  . next ht =>
    cases h
    dsimp at ht
    subst ht
    simp +arith
  . cases h

theorem sizeOf_properties_lt (t : ComplexType) : sizeOf t.properties < sizeOf t := by
  cases t
  simp +arith

theorem Occurs.sizeOf_lt {t : ComplexType} {properties : List Property} (h : Occurs t properties)
    : sizeOf t < sizeOf properties := by
  induction h with
  | @here properties p hp ht =>
    calc
      sizeOf t < sizeOf p := sizeOf_lt_of_embedded? ht
      _ < sizeOf properties := List.sizeOf_lt_of_mem hp
  | @within properties p outer hp houter _ ih =>
    calc
      sizeOf t < sizeOf outer.properties := ih
      _ < sizeOf outer := sizeOf_properties_lt outer
      _ < sizeOf p := sizeOf_lt_of_embedded? houter
      _ < sizeOf properties := List.sizeOf_lt_of_mem hp

namespace Model

def HasProperty (m : Model) (p : Property) : Prop :=
  (∃ t ∈ m.entityTypes, p ∈ t.properties) ∨ ∃ t ∈ m.complexTypes, p ∈ t.properties

structure Consistent (m : Model) : Prop where
  not_occurs : ∀ t ∈ m.complexTypes, ∀ inner, Occurs inner t.properties → inner.name ≠ t.name
  /-- The complex type of a property is the one that the model has under the name. -/
  embedded : ∀ p, m.HasProperty p → ∀ t, p.type.embedded? = some t → m.complexType? t.name = some t
  items : ∀ p, m.HasProperty p → (∃ item, p.type = .single item)
    ∨ ∃ kind item, PropertyType.collectionOf kind (.single item) = .ok p.type
  targets : ∀ set ∈ m.sets, ∀ n ∈ set.type.navigations,
    ∃! target, target ∈ m.sets ∧ target.type.name = n.target

end Model

namespace Registry

variable {α : Type} {r : Registry α} {config : Config} {made : MadeTypes} {m : Model}

section

variable {registered? : Shape → Option (ComplexEntry α)} {absent : Shape → Prop}
  {fields : List Field} {properties : List Property}

theorem propertyFor_type (f : Field) (item : ItemType)
    : (f.propertyFor item).type = .single item ∨ (f.propertyFor item).type = .collection .list item
    := by
  unfold Field.propertyFor
  cases f.collection with
  | true => exact .inr rfl
  | false => exact .inl rfl

theorem embedded?_propertyFor_simple (f : Field) (t : SimpleType)
    : (f.propertyFor (.simple t)).type.embedded? = none := by
  rcases propertyFor_type f (.simple t) with h | h <;> rw [h] <;> rfl

theorem embedded?_propertyFor_complex (f : Field) (t : ComplexType)
    : (f.propertyFor (.complex t)).type.embedded? = some t := by
  rcases propertyFor_type f (.complex t) with h | h <;> rw [h] <;> rfl

theorem propertyFor_name (f : Field) (item : ItemType) : (f.propertyFor item).name = f.name := rfl

theorem PropertiesOf.exists_field (h : PropertiesOf registered? made absent fields properties)
    {p : Property} (hp : p ∈ properties)
    : ∃ f ∈ fields,
        (∃ t, p = f.propertyFor (.simple t))
          ∨
        ∃ shape t, made.lookup shape = some t ∧ p = f.propertyFor (.complex t) := by
  induction h with
  | nil => cases hp
  | @simple f _ _ t _ _ ih =>
    rcases List.mem_cons.mp hp with rfl | hp
    . exact ⟨f, List.mem_cons_self, .inl ⟨t, rfl⟩⟩
    . obtain ⟨f', hf', hitem⟩ := ih hp
      exact ⟨f', List.mem_cons_of_mem f hf', hitem⟩
  | @complex f _ _ shape t _ hlookup _ ih =>
    rcases List.mem_cons.mp hp with rfl | hp
    . exact ⟨f, List.mem_cons_self, .inr ⟨shape, t, hlookup, rfl⟩⟩
    . obtain ⟨f', hf', hitem⟩ := ih hp
      exact ⟨f', List.mem_cons_of_mem f hf', hitem⟩
  | @enumeration f _ _ _ _ _ ih | @unregistered f _ _ _ _ _ _ ih | @absent f _ _ _ _ _ _ _ _ ih =>
    obtain ⟨f', hf', hitem⟩ := ih hp
    exact ⟨f', List.mem_cons_of_mem f hf', hitem⟩

theorem asKeyOf_type (keys : List String) (p : Property)
    : (Property.asKeyOf keys p).type = p.type := by
  unfold Property.asKeyOf
  split
  . rfl
  . rfl

theorem asKeyOf_name (keys : List String) (p : Property)
    : (Property.asKeyOf keys p).name = p.name := by
  unfold Property.asKeyOf
  split
  . rfl
  . rfl

theorem names_asKeyOf (keys : List String) (properties : List Property)
    : (properties.map (Property.asKeyOf keys)).map (·.name) = properties.map (·.name) := by
  rw [List.map_map]
  apply List.map_congr_left
  intro p _
  exact asKeyOf_name keys p

end

/-! ### Consistency -/

def LeadsTo (r : Registry α) (f : Field) (n : Navigation) (set : EntitySet) : Prop :=
  ∃ shape e,
    f.type = .record shape
      ∧
    r.setOfShape? shape = some e
      ∧
    n.name = f.name
      ∧
    n.target = e.typeName
      ∧
    set.name = e.name
      ∧
    set.type.name = e.typeName

theorem IsModelOf.mem_complexTypes (h : r.IsModelOf config made m) {shape : Shape}
    {t : ComplexType} (ht : made.lookup shape = some t) : t ∈ m.complexTypes := by
  obtain ⟨e, he⟩ := h.complete shape t ht
  obtain ⟨hmem, hshape⟩ := mem_of_complexOfShape? he.entry
  obtain ⟨t', ht', hlookup⟩ := exists_of_forall₂ h.complexTypes hmem
  rw [hshape, ht] at hlookup
  cases hlookup
  exact ht'

theorem IsModelOf.exists_field (h : r.IsModelOf config made m) {p : Property}
    (hp : m.HasProperty p)
    : ∃ f : Field,
        (∃ t, p.type = (f.propertyFor (.simple t)).type)
          ∨
        ∃ shape t, made.lookup shape = some t ∧ p.type = (f.propertyFor (.complex t)).type := by
  obtain ⟨absent, fields, properties, hproperties, p', hp', htype⟩ : ∃ absent fields properties,
      PropertiesOf r.complexOfShape? made absent fields properties
        ∧
      ∃ p' ∈ properties, p.type = p'.type := by
    rcases hp with ⟨t, ht, hp⟩ | ⟨t, ht, hp⟩
    . obtain ⟨set, hset, rfl⟩ := List.mem_map.mp ht
      obtain ⟨e, _, _, ht⟩ := exists_of_forall₂ (List.Forall₂.flip (R := flip _) h.sets) hset
      obtain ⟨properties, hproperties, heq⟩ := ht.properties
      rw [heq] at hp
      obtain ⟨p', hp', rfl⟩ := List.mem_map.mp hp
      exact ⟨_, _, properties, hproperties, p', hp', asKeyOf_type e.keys p'⟩
    . obtain ⟨e, _, hlookup⟩ :=
        exists_of_forall₂ (List.Forall₂.flip (R := flip _) h.complexTypes) ht
      obtain ⟨e', ht⟩ := h.complete e.shape t hlookup
      exact ⟨_, _, t.properties, ht.properties, p, hp, rfl⟩
  obtain ⟨f, _, hf⟩ := hproperties.exists_field hp'
  rw [htype]
  rcases hf with ⟨t, rfl⟩ | ⟨shape, t, hlookup, rfl⟩
  . exact ⟨f, .inl ⟨t, rfl⟩⟩
  . exact ⟨f, .inr ⟨shape, t, hlookup, rfl⟩⟩

theorem IsModelOf.mem_of_embedded? (h : r.IsModelOf config made m) {p : Property}
    (hp : m.HasProperty p) {t : ComplexType} (ht : p.type.embedded? = some t)
    : t ∈ m.complexTypes := by
  obtain ⟨f, ⟨t', htype⟩ | ⟨shape, t', hlookup, htype⟩⟩ := h.exists_field hp
  . rw [htype, embedded?_propertyFor_simple] at ht
    cases ht
  . rw [htype, embedded?_propertyFor_complex] at ht
    cases ht
    exact h.mem_complexTypes hlookup

theorem IsModelOf.mem_of_occurs (h : r.IsModelOf config made m) {inner : ComplexType}
    {properties : List Property} (hinner : Occurs inner properties)
    (hproperties : ∀ p ∈ properties, m.HasProperty p) : inner ∈ m.complexTypes := by
  induction hinner with
  | here hp ht => exact h.mem_of_embedded? (hproperties _ hp) ht
  | within hp houter _ ih =>
    apply ih
    intro p' hp'
    exact .inr ⟨_, h.mem_of_embedded? (hproperties _ hp) houter, hp'⟩

theorem IsModelOf.not_occurs (h : r.IsModelOf config made m) {t inner : ComplexType}
    (ht : t ∈ m.complexTypes) (hinner : Occurs inner t.properties) : inner.name ≠ t.name := by
  intro hname
  have hmem := h.mem_of_occurs hinner fun p hp => .inr ⟨t, ht, hp⟩
  -- Names are unique, so the type would be smaller than itself.
  obtain rfl := List.inj_on_of_nodup_map m.complexNames_nodup hmem ht hname
  exact Nat.lt_asymm hinner.sizeOf_lt (sizeOf_properties_lt inner)

theorem IsModelOf.items (h : r.IsModelOf config made m) {p : Property} (hp : m.HasProperty p)
    : (∃ item, p.type = .single item)
        ∨
      ∃ kind item, PropertyType.collectionOf kind (.single item) = .ok p.type := by
  obtain ⟨f, item, htype⟩ : ∃ (f : Field) (item : ItemType),
      p.type = (f.propertyFor item).type := by
    obtain ⟨f, ⟨t, htype⟩ | ⟨_, t, _, htype⟩⟩ := h.exists_field hp
    . exact ⟨f, .simple t, htype⟩
    . exact ⟨f, .complex t, htype⟩
  rw [htype]
  rcases propertyFor_type f item with hitem | hitem
  . exact .inl ⟨item, hitem⟩
  . exact .inr ⟨.list, item, by rw [hitem]; rfl⟩

theorem IsModelOf.leadsTo (h : r.IsModelOf config made m) {e : SetEntry α} {t : EntityType}
    (ht : r.IsEntityTypeOf config.namespace_ made e t) {n : Navigation} (hn : n ∈ t.navigations)
    : ∃ f ∈ e.accessor.fields, ∃ set ∈ m.sets, r.LeadsTo f n set := by
  rw [ht.navigations] at hn
  obtain ⟨f, hf, hn⟩ := List.mem_filterMap.mp hn
  obtain ⟨shape, target, hshape, htarget, hname, _, htype⟩ := exists_of_navigation? hn
  obtain ⟨set, hset, hsetname, hsettype⟩ :=
    exists_of_forall₂ h.sets (mem_of_setOfShape? htarget).1
  exact ⟨f, hf, set, hset, shape, target, hshape, htarget, hname, htype, hsetname, hsettype.name⟩

theorem IsModelOf.consistent (h : r.IsModelOf config made m) : m.Consistent where
  not_occurs t ht inner hinner := h.not_occurs ht hinner
  embedded p hp t ht := find?_eq_some_of_nodup m.complexNames_nodup (h.mem_of_embedded? hp ht)
  items p hp := h.items hp
  targets set hset n hn := by
    obtain ⟨e, _, _, ht⟩ := exists_of_forall₂ (List.Forall₂.flip (R := flip _) h.sets) hset
    obtain ⟨_, _, target, htarget, _, _, _, _, _, hn, _, htype⟩ := h.leadsTo ht hn
    rw [← htype] at hn
    refine ⟨target, ⟨htarget, hn.symm⟩, ?_⟩
    intro other ⟨hother, hname⟩
    exact List.inj_on_of_nodup_map m.typeNames_nodup hother htarget (hname.trans hn)

/--
The making of properties ends with a run for any fields, and the parts of each model that is made
go together: a navigation leads to the one set for the shape of its field.
-/
theorem generate_consistent (r : Registry α) (config : Config)
    : (∀ pending fields made,
        r.Makes config.namespace_ pending fields made
          (r.propertiesOf config.namespace_ pending fields made).1
          (r.propertiesOf config.namespace_ pending fields made).2)
        ∧
      ∀ m, r.generate config = .ok m →
        m.Consistent
          ∧
        List.Forall₂
          (fun e set =>
            set.name = e.name
              ∧
            ∀ n ∈ set.type.navigations,
              ∃ f ∈ e.accessor.fields, ∃ target ∈ m.sets, r.LeadsTo f n target)
          r.sets m.sets := by
  refine ⟨makes_propertiesOf r config.namespace_, ?_⟩
  intro m h
  obtain ⟨made, hmodel⟩ := exists_isModelOf h
  refine ⟨hmodel.consistent, hmodel.sets.imp ?_⟩
  intro e set ⟨hname, ht⟩
  exact ⟨hname, fun n hn => hmodel.leadsTo ht hn⟩

end Registry

/-! ### Teams that contain members, who contain teams -/

namespace Teams

def teamShape : Shape := ⟨"team"⟩

def memberShape : Shape := ⟨"member"⟩

def projectShape : Shape := ⟨"project"⟩

def team : ComplexEntry (Dynamic Empty) where
  typeName := "Team"
  shape := teamShape
  accessor := Bag.rawAccessor [
    ⟨"Title", .simple .string, false, true⟩,
    ⟨"Members", .record memberShape, true, false⟩]
  hooks? := none

def member : ComplexEntry (Dynamic Empty) where
  typeName := "Member"
  shape := memberShape
  accessor := Bag.rawAccessor [
    ⟨"Name", .simple .string, false, true⟩,
    ⟨"Team", .record teamShape, false, true⟩,
    ⟨"Tutor", .record memberShape, false, true⟩]
  hooks? := none

def projects : SetEntry (Dynamic Empty) where
  name := "Projects"
  typeName := "Project"
  shape := projectShape
  accessor := Bag.rawAccessor [
    ⟨"Id", .simple .int32, false, true⟩,
    ⟨"Owner", .record memberShape, false, true⟩,
    ⟨"Parts", .record projectShape, true, false⟩]
  keys := ["Id"]
  records := []
  hooks? := none

def registry : Registry (Dynamic Empty) := ⟨[projects], [team, member]⟩

def teamType : ComplexType where
  namespace_ := "InMemory"
  name := "Team"
  properties := [⟨"Title", .simple .string, true⟩]

def memberType : ComplexType where
  namespace_ := "InMemory"
  name := "Member"
  properties := [⟨"Name", .simple .string, true⟩, ⟨"Team", .complex teamType, true⟩]

/-- The type of projects whose owners are members of the given type. -/
def projectType (owner : ComplexType) : EntityType where
  namespace_ := "InMemory"
  name := "Project"
  keys := ["Id"]
  properties := [⟨"Id", .simple .int32, false⟩, ⟨"Owner", .complex owner, true⟩]
  navigations := [⟨"Parts", .many, "Project"⟩]

def model : Model where
  namespace_ := "InMemory"
  containerName := "Container"
  sets := [⟨"Projects", projectType memberType⟩]
  complexTypes := [teamType, memberType]
  setNames_nodup := by decide
  typeNames_nodup := by decide
  complexNames_nodup := by decide

theorem generate_eq : registry.generate {} = .ok model := by
  cbv

/-- What a project is part of leads back to the projects. -/
theorem model_consistent
    : registry.generate {} = .ok model
        ∧
      model.Consistent
        ∧
      ∃ f ∈ projects.accessor.fields, ∃ target ∈ model.sets,
        registry.LeadsTo f ⟨"Parts", .many, "Project"⟩ target := by
  obtain ⟨hconsistent, hsets⟩ := (Registry.generate_consistent registry {}).2 model generate_eq
  refine ⟨generate_eq, hconsistent, ?_⟩
  cases hsets with
  | cons h _ => exact h.2 _ List.mem_cons_self

end Teams

end Edm
