import Mathlib.Logic.Relation
import Edm.Proofs.Generation

/-!
This module contains the making of complex types, step by step. Types that are made are kept in a
table, and types that are being made are pending, so that each of them is made only once. The main
statement is that a model goes with a table in which each type has just the properties that follow
from the fields of its shape and from the table itself, so that what the model has under the name of
a registration declares the fields of the registration.
-/

namespace Edm

variable {α : Type}

/-- The property for a field whose values, or the items of them, are of a type. -/
def Field.propertyFor (f : Field) (item : ItemType) : Property :=
  ⟨f.name, if f.collection then .collection .list item else .single item, f.nullable⟩

namespace Registry

/-! ### Runs -/

/-- The properties that are made for fields, and the table of types before and after that. -/
inductive Makes (r : Registry α) (namespace_ : String) :
    List Shape → List Field → MadeTypes → List Property → MadeTypes → Prop where
  | done {pending : List Shape} {made : MadeTypes} : Makes r namespace_ pending [] made [] made
  | simple {pending : List Shape} {f : Field} {fields : List Field} {made made' : MadeTypes}
      {properties : List Property} {t : SimpleType} (hf : f.type = .simple t)
      (h : Makes r namespace_ pending fields made properties made')
      : Makes r namespace_ pending (f :: fields) made (f.propertyFor (.simple t) :: properties)
          made'
  | enumeration {pending : List Shape} {f : Field} {fields : List Field} {made made' : MadeTypes}
      {properties : List Property} {name : String} (hf : f.type = .enumeration name)
      (h : Makes r namespace_ pending fields made properties made')
      : Makes r namespace_ pending (f :: fields) made properties made'
  | known {pending : List Shape} {f : Field} {fields : List Field} {made made' : MadeTypes}
      {properties : List Property} {shape : Shape} {t : ComplexType} (hf : f.type = .record shape)
      (hmade : made.lookup shape = some t)
      (h : Makes r namespace_ pending fields made properties made')
      : Makes r namespace_ pending (f :: fields) made (f.propertyFor (.complex t) :: properties)
          made'
  | unregistered {pending : List Shape} {f : Field} {fields : List Field} {made made' : MadeTypes}
      {properties : List Property} {shape : Shape} (hf : f.type = .record shape)
      (hmade : made.lookup shape = none) (he : r.complexOfShape? shape = none)
      (h : Makes r namespace_ pending fields made properties made')
      : Makes r namespace_ pending (f :: fields) made properties made'
  | pending {pending : List Shape} {f : Field} {fields : List Field} {made made' : MadeTypes}
      {properties : List Property} {shape : Shape} {e : ComplexEntry α}
      (hf : f.type = .record shape) (hmade : made.lookup shape = none)
      (he : r.complexOfShape? shape = some e) (hpending : shape ∈ pending)
      (h : Makes r namespace_ pending fields made properties made')
      : Makes r namespace_ pending (f :: fields) made properties made'
  | new {pending : List Shape} {f : Field} {fields : List Field} {made made₁ made₂ : MadeTypes}
      {inner properties : List Property} {shape : Shape} {e : ComplexEntry α}
      (hf : f.type = .record shape) (hmade : made.lookup shape = none)
      (he : r.complexOfShape? shape = some e) (hpending : shape ∉ pending)
      (hinner : Makes r namespace_ (shape :: pending) e.accessor.fields made inner made₁)
      (h : Makes r namespace_ pending fields ((shape, ⟨namespace_, e.typeName, inner⟩) :: made₁)
        properties made₂)
      : Makes r namespace_ pending (f :: fields) made
          (f.propertyFor (.complex ⟨namespace_, e.typeName, inner⟩) :: properties) made₂

section

variable {r : Registry α} {namespace_ : String}

theorem makes_all
    : (∀ pending shape made (f : Field) fields properties made', f.type = .record shape →
        r.Makes namespace_ pending fields (r.complexType namespace_ pending shape made).2 properties
          made' →
        r.Makes namespace_ pending (f :: fields) made
          (((r.complexType namespace_ pending shape made).1.map fun t =>
            f.propertyFor (.complex t)).toList ++ properties) made')
        ∧
      (∀ pending fields made,
        r.Makes namespace_ pending fields made
          (r.propertiesOf namespace_ pending fields made).1
          (r.propertiesOf namespace_ pending fields made).2)
        ∧
      ∀ pending f made fields properties made',
        r.Makes namespace_ pending fields (r.propertyOf namespace_ pending f made).2 properties
          made' →
        r.Makes namespace_ pending (f :: fields) made
          ((r.propertyOf namespace_ pending f made).1.toList ++ properties) made' := by
  apply complexType.mutual_induct r namespace_
  . intro pending shape made t hlookup f fields properties made' hf h
    rw [complexType_of_lookup hlookup] at h ⊢
    exact .known hf hlookup h
  . intro pending shape made hlookup he f fields properties made' hf h
    rw [complexType_of_none hlookup he] at h ⊢
    exact .unregistered hf hlookup he h
  . intro pending shape made hlookup e he hpending f fields properties made' hf h
    rw [complexType_of_mem hlookup hpending] at h ⊢
    exact .pending hf hlookup he hpending h
  . intro pending shape made hlookup e he hpending inner made₁ hinner ih f fields properties made'
      hf h
    rw [hinner] at ih
    rw [complexType_of_not_mem hlookup he hpending hinner] at h ⊢
    exact .new hf hlookup he hpending ih h
  . intro pending made
    rw [propertiesOf]
    exact .done
  . intro pending made f fields property made₁ hproperty properties made₂ hproperties ihf ihfields
    rw [hproperties] at ihfields
    rw [hproperty] at ihf
    rw [propertiesOf, hproperty]
    dsimp
    rw [hproperties]
    exact ihf _ _ _ ihfields
  . intro pending f made item made₁ hitem ih fields properties made' h
    rw [propertyOf] at h ⊢
    cases hf : f.type with
    | simple t =>
      rw [hf] at h
      exact .simple hf h
    | enumeration name =>
      rw [hf] at h
      exact .enumeration hf h
    | record shape =>
      rw [hf] at h
      have hrun := ih shape f fields properties made' hf h
      dsimp
      rw [Option.map_map]
      exact hrun

theorem makes_propertiesOf (r : Registry α) (namespace_ : String) (pending : List Shape)
    (fields : List Field) (made : MadeTypes)
    : r.Makes namespace_ pending fields made
        (r.propertiesOf namespace_ pending fields made).1
        (r.propertiesOf namespace_ pending fields made).2 := by
  exact makes_all.2.1 pending fields made

theorem makes_complexType (r : Registry α) (namespace_ : String) (pending : List Shape)
    (shape : Shape) (made : MadeTypes) {f : Field} (hf : f.type = .record shape)
    : r.Makes namespace_ pending [f] made
        ((r.complexType namespace_ pending shape made).1.map fun t =>
          f.propertyFor (.complex t)).toList
        (r.complexType namespace_ pending shape made).2 := by
  have hdone : r.Makes namespace_ pending [] (r.complexType namespace_ pending shape made).2 []
      (r.complexType namespace_ pending shape made).2 := .done
  have h := makes_all.1 pending shape made f [] [] _ hf hdone
  rw [List.append_nil] at h
  exact h

end

/-! ### Tables -/

def Extends (made made' : MadeTypes) : Prop :=
  ∀ shape t, made.lookup shape = some t → made'.lookup shape = some t

theorem extends_refl (made : MadeTypes) : Extends made made := fun _ _ h => h

theorem Extends.trans {made₁ made₂ made₃ : MadeTypes} (h : Extends made₁ made₂)
    (h' : Extends made₂ made₃) : Extends made₁ made₃ := by
  intro shape t ht
  apply h' shape t (h shape t ht)

theorem lookup_cons_self (shape : Shape) (t : ComplexType) (made : MadeTypes)
    : List.lookup shape ((shape, t) :: made) = some t := by
  simp

theorem lookup_cons_of_ne {shape other : Shape} (h : other ≠ shape) (t : ComplexType)
    (made : MadeTypes) : List.lookup other ((shape, t) :: made) = made.lookup other := by
  rw [List.lookup_cons, beq_false_of_ne h]

theorem extends_cons {made : MadeTypes} {shape : Shape} (h : made.lookup shape = none)
    (t : ComplexType) : Extends made ((shape, t) :: made) := by
  intro other t' ht'
  have hne : other ≠ shape := by
    rintro rfl
    rw [h] at ht'
    cases ht'
  rw [lookup_cons_of_ne hne]
  exact ht'

section

variable {r : Registry α} {namespace_ : String} {pending : List Shape} {fields : List Field}
  {properties : List Property} {made made' : MadeTypes}

theorem Makes.lookup_eq_none (h : r.Makes namespace_ pending fields made properties made')
    {shape : Shape} (hpending : shape ∈ pending) (hmade : made.lookup shape = none)
    : made'.lookup shape = none := by
  induction h with
  | done => exact hmade
  | simple _ _ ih | enumeration _ _ ih | known _ _ _ ih | unregistered _ _ _ _ ih
  | pending _ _ _ _ _ ih => exact ih hpending hmade
  | @new _ _ _ _ _ _ _ _ other _ _ _ _ hother _ _ ihinner ih =>
    have hne : shape ≠ other := by
      rintro rfl
      exact hother hpending
    apply ih hpending
    rw [lookup_cons_of_ne hne]
    apply ihinner (List.mem_cons_of_mem _ hpending) hmade

theorem Makes.extends (h : r.Makes namespace_ pending fields made properties made')
    : Extends made made' := by
  induction h with
  | done => exact extends_refl _
  | simple _ _ ih | enumeration _ _ ih | known _ _ _ ih | unregistered _ _ _ _ ih
  | pending _ _ _ _ _ ih => exact ih
  | new _ hmade _ _ hinner _ ihinner ih =>
    have hstill := hinner.lookup_eq_none List.mem_cons_self hmade
    exact (ihinner.trans (extends_cons hstill _)).trans ih

end

/-! ### What a type has properties for -/

section

variable {registered? : Shape → Option (ComplexEntry α)}

/-- Complex values of the first shape have a field for records of the second one. -/
def Includes (registered? : Shape → Option (ComplexEntry α)) (outer inner : Shape) : Prop :=
  ∃ e f, registered? outer = some e ∧ f ∈ e.accessor.fields ∧ f.type = .record inner

def Contains (registered? : Shape → Option (ComplexEntry α)) : Shape → Shape → Prop :=
  Relation.TransGen (Includes registered?)

/--
The properties are those of the fields with the types of a table. Only fields of an `absent` shape
may be without a property although the shape is that of complex values.
-/
inductive PropertiesOf (registered? : Shape → Option (ComplexEntry α)) (made : MadeTypes)
    (absent : Shape → Prop) : List Field → List Property → Prop where
  | nil : PropertiesOf registered? made absent [] []
  | simple {f : Field} {fields : List Field} {properties : List Property} {t : SimpleType}
      (hf : f.type = .simple t) (h : PropertiesOf registered? made absent fields properties)
      : PropertiesOf registered? made absent (f :: fields) (f.propertyFor (.simple t) :: properties)
  | enumeration {f : Field} {fields : List Field} {properties : List Property} {name : String}
      (hf : f.type = .enumeration name) (h : PropertiesOf registered? made absent fields properties)
      : PropertiesOf registered? made absent (f :: fields) properties
  | complex {f : Field} {fields : List Field} {properties : List Property} {shape : Shape}
      {t : ComplexType} (hf : f.type = .record shape) (hmade : made.lookup shape = some t)
      (h : PropertiesOf registered? made absent fields properties)
      : PropertiesOf registered? made absent (f :: fields)
          (f.propertyFor (.complex t) :: properties)
  | unregistered {f : Field} {fields : List Field} {properties : List Property} {shape : Shape}
      (hf : f.type = .record shape) (he : registered? shape = none)
      (h : PropertiesOf registered? made absent fields properties)
      : PropertiesOf registered? made absent (f :: fields) properties
  | absent {f : Field} {fields : List Field} {properties : List Property} {shape : Shape}
      {e : ComplexEntry α} (hf : f.type = .record shape) (he : registered? shape = some e)
      (habsent : absent shape) (h : PropertiesOf registered? made absent fields properties)
      : PropertiesOf registered? made absent (f :: fields) properties

theorem PropertiesOf.mono {made made' : MadeTypes} {absent absent' : Shape → Prop}
    {fields : List Field} {properties : List Property}
    (h : PropertiesOf registered? made absent fields properties) (hmade : Extends made made')
    (habsent : ∀ f ∈ fields, ∀ shape, f.type = .record shape → absent shape → absent' shape)
    : PropertiesOf registered? made' absent' fields properties := by
  induction h with
  | nil => exact .nil
  | simple hf _ ih => exact .simple hf (ih (List.forall_mem_of_forall_mem_cons habsent))
  | enumeration hf _ ih =>
    exact .enumeration hf (ih (List.forall_mem_of_forall_mem_cons habsent))
  | complex hf hlookup _ ih =>
    exact .complex hf (hmade _ _ hlookup) (ih (List.forall_mem_of_forall_mem_cons habsent))
  | unregistered hf he _ ih =>
    exact .unregistered hf he (ih (List.forall_mem_of_forall_mem_cons habsent))
  | absent hf he hshape _ ih =>
    exact .absent hf he (habsent _ List.mem_cons_self _ hf hshape)
      (ih (List.forall_mem_of_forall_mem_cons habsent))

/-- The type is that of a shape, up to fields of shapes that contain the shape in turn. -/
structure IsTypeOf (registered? : Shape → Option (ComplexEntry α)) (namespace_ : String)
    (made : MadeTypes) (shape : Shape) (e : ComplexEntry α) (t : ComplexType) : Prop where
  entry : registered? shape = some e
  namespace_eq : t.namespace_ = namespace_
  name : t.name = e.typeName
  properties :
    PropertiesOf registered? made (fun other => Contains registered? other shape) e.accessor.fields
      t.properties

/-- Each type of the table is that of its shape, with the other types of the table in it. -/
def Complete (registered? : Shape → Option (ComplexEntry α)) (namespace_ : String)
    (made : MadeTypes) : Prop :=
  ∀ shape t, made.lookup shape = some t → ∃ e, IsTypeOf registered? namespace_ made shape e t

theorem complete_nil (namespace_ : String) : Complete registered? namespace_ [] := by
  intro shape t h
  cases h

theorem IsTypeOf.mono {namespace_ : String} {made made' : MadeTypes} {shape : Shape}
    {e : ComplexEntry α} {t : ComplexType} (h : IsTypeOf registered? namespace_ made shape e t)
    (hmade : Extends made made') : IsTypeOf registered? namespace_ made' shape e t :=
  ⟨h.entry, h.namespace_eq, h.name, h.properties.mono hmade fun _ _ _ _ => id⟩

theorem Complete.cons {namespace_ : String} {made : MadeTypes} {shape : Shape}
    {e : ComplexEntry α} {t : ComplexType} (h : Complete registered? namespace_ made)
    (hnew : made.lookup shape = none) (ht : IsTypeOf registered? namespace_ made shape e t)
    : Complete registered? namespace_ ((shape, t) :: made) := by
  intro other t' ht'
  by_cases hother : other = shape
  . subst hother
    rw [lookup_cons_self] at ht'
    cases ht'
    exact ⟨e, ht.mono (extends_cons hnew t)⟩
  . rw [lookup_cons_of_ne hother] at ht'
    obtain ⟨e', he'⟩ := h other t' ht'
    exact ⟨e', he'.mono (extends_cons hnew t)⟩

end

/--
A run makes just the properties of the fields. It leaves out fields of pending shapes only, and all
of these contain what is made now.
-/
theorem Makes.complete {r : Registry α} {namespace_ : String} {pending : List Shape}
    {fields : List Field} {properties : List Property} {made made' : MadeTypes}
    (h : r.Makes namespace_ pending fields made properties made')
    (hmade : Complete r.complexOfShape? namespace_ made)
    (hpending : ∀ f ∈ fields, ∀ shape, f.type = .record shape →
      ∀ outer ∈ pending, Contains r.complexOfShape? outer shape)
    : Complete r.complexOfShape? namespace_ made'
        ∧
      PropertiesOf r.complexOfShape? made' (· ∈ pending) fields properties := by
  induction h with
  | done => exact ⟨hmade, .nil⟩
  | simple hf _ ih =>
    obtain ⟨hmade', hrest⟩ := ih hmade (List.forall_mem_of_forall_mem_cons hpending)
    exact ⟨hmade', .simple hf hrest⟩
  | enumeration hf _ ih =>
    obtain ⟨hmade', hrest⟩ := ih hmade (List.forall_mem_of_forall_mem_cons hpending)
    exact ⟨hmade', .enumeration hf hrest⟩
  | known hf hlookup h ih =>
    obtain ⟨hmade', hrest⟩ := ih hmade (List.forall_mem_of_forall_mem_cons hpending)
    exact ⟨hmade', .complex hf (h.extends _ _ hlookup) hrest⟩
  | unregistered hf _ he _ ih =>
    obtain ⟨hmade', hrest⟩ := ih hmade (List.forall_mem_of_forall_mem_cons hpending)
    exact ⟨hmade', .unregistered hf he hrest⟩
  | pending hf _ he hshape _ ih =>
    obtain ⟨hmade', hrest⟩ := ih hmade (List.forall_mem_of_forall_mem_cons hpending)
    exact ⟨hmade', .absent hf he hshape hrest⟩
  | @new pending f _ _ _ _ _ _ shape e hf hlookup he hshape hinner h ihinner ih =>
    have hincludes : ∀ g ∈ e.accessor.fields, ∀ other, g.type = .record other →
        Includes r.complexOfShape? shape other :=
      fun g hg other hother => ⟨e, g, he, hg, hother⟩
    have houter : ∀ outer ∈ pending, Contains r.complexOfShape? outer shape :=
      hpending f List.mem_cons_self shape hf
    -- Whatever is pending while the new type is made contains the shapes of its fields.
    have hinnerpending : ∀ g ∈ e.accessor.fields, ∀ other, g.type = .record other →
        ∀ outer ∈ shape :: pending, Contains r.complexOfShape? outer other := by
      intro g hg other hother outer hmem
      rcases List.mem_cons.mp hmem with rfl | hmem
      . exact .single (hincludes g hg other hother)
      . exact .tail (houter outer hmem) (hincludes g hg other hother)
    obtain ⟨hmade₁, hproperties⟩ := ihinner hmade hinnerpending
    have hnew := hinner.lookup_eq_none List.mem_cons_self hlookup
    -- A pending shape contains the new one, and a field of the new shape leads back to it.
    have htype : IsTypeOf r.complexOfShape? namespace_ _ shape e ⟨namespace_, e.typeName, _⟩ :=
      ⟨he, rfl, rfl, hproperties.mono (extends_refl _) fun g hg other hother hmem => by
        rcases List.mem_cons.mp hmem with rfl | hmem
        . exact .single (hincludes g hg other hother)
        . exact houter other hmem⟩
    obtain ⟨hmade₂, hrest⟩ := ih (hmade₁.cons hnew htype)
      (List.forall_mem_of_forall_mem_cons hpending)
    exact ⟨hmade₂, .complex hf (h.extends _ _ (lookup_cons_self ..)) hrest⟩

/-! ### Models -/

/-- The type is that of the entities of a set, with the types of a table in it. -/
structure IsEntityTypeOf (r : Registry α) (namespace_ : String) (made : MadeTypes)
    (e : SetEntry α) (t : EntityType) : Prop where
  namespace_eq : t.namespace_ = namespace_
  name : t.name = e.typeName
  keys : t.keys = e.keys
  navigations : t.navigations = e.accessor.fields.filterMap r.navigation?
  properties :
    ∃ properties,
      PropertiesOf r.complexOfShape? made (fun _ => False)
          (e.accessor.fields.filter fun f => (r.navigation? f).isNone) properties
        ∧
      t.properties = properties.map (Property.asKeyOf e.keys)

/-- The model of the registrations, with the types of a table in it. -/
structure IsModelOf (r : Registry α) (config : Config) (made : MadeTypes) (m : Model) : Prop where
  namespace_eq : m.namespace_ = config.namespace_
  containerName : m.containerName = config.containerName
  complete : Complete r.complexOfShape? config.namespace_ made
  sets :
    List.Forall₂
      (fun e set => set.name = e.name ∧ r.IsEntityTypeOf config.namespace_ made e set.type)
      r.sets m.sets
  complexTypes :
    List.Forall₂ (fun e t => made.lookup e.shape = some t) r.complexTypes m.complexTypes

section

variable {r : Registry α} {namespace_ : String} {made made' : MadeTypes}

theorem IsEntityTypeOf.mono {e : SetEntry α} {t : EntityType}
    (h : r.IsEntityTypeOf namespace_ made e t) (hmade : Extends made made')
    : r.IsEntityTypeOf namespace_ made' e t := by
  obtain ⟨properties, hproperties, heq⟩ := h.properties
  exact ⟨h.namespace_eq, h.name, h.keys, h.navigations, properties,
    hproperties.mono hmade fun _ _ _ _ => id, heq⟩

theorem propertiesOf_complete (hmade : Complete r.complexOfShape? namespace_ made)
    {fields : List Field} {properties : List Property}
    (h : r.Makes namespace_ [] fields made properties made')
    : Extends made made'
        ∧
      Complete r.complexOfShape? namespace_ made'
        ∧
      PropertiesOf r.complexOfShape? made' (fun _ => False) fields properties := by
  obtain ⟨hmade', hproperties⟩ := h.complete hmade (by simp)
  exact ⟨h.extends, hmade', hproperties.mono (extends_refl _) (by simp)⟩

theorem entityType_complete (hmade : Complete r.complexOfShape? namespace_ made) {e : SetEntry α}
    {t : EntityType} (h : r.entityType namespace_ e made = .ok (t, made'))
    : Extends made made'
        ∧
      Complete r.complexOfShape? namespace_ made'
        ∧
      r.IsEntityTypeOf namespace_ made' e t := by
  unfold entityType at h
  dsimp at h
  obtain ⟨t', ht, h⟩ := bind_eq_ok.mp h
  cases h
  obtain ⟨hextends, hmade', hproperties⟩ :=
    propertiesOf_complete hmade (makes_propertiesOf ..)
  refine ⟨hextends, hmade', ?_⟩
  rw [create_eq_ok ht]
  exact ⟨rfl, rfl, rfl, rfl, _, hproperties, rfl⟩

theorem entitySets_complete (hmade : Complete r.complexOfShape? namespace_ made)
    {es : List (SetEntry α)} {sets : List EntitySet}
    (h : r.entitySets namespace_ es made = .ok (sets, made'))
    : Extends made made'
        ∧
      Complete r.complexOfShape? namespace_ made'
        ∧
      List.Forall₂ (fun e set => set.name = e.name ∧ r.IsEntityTypeOf namespace_ made' e set.type)
        es sets := by
  induction es generalizing sets made with
  | nil =>
    cases h
    exact ⟨extends_refl _, hmade, .nil⟩
  | cons e es ih =>
    rw [entitySets] at h
    obtain ⟨⟨t, made₁⟩, ht, h⟩ := bind_eq_ok.mp h
    obtain ⟨⟨sets', made₂⟩, hsets, h⟩ := bind_eq_ok.mp h
    cases h
    obtain ⟨hextends, hmade₁, ht⟩ := entityType_complete hmade ht
    obtain ⟨hextends', hmade₂, hsets⟩ := ih hmade₁ hsets
    exact ⟨hextends.trans hextends', hmade₂, .cons ⟨rfl, ht.mono hextends'⟩ hsets⟩

theorem complexType_complete (hmade : Complete r.complexOfShape? namespace_ made) {shape : Shape}
    {e : ComplexEntry α} (he : r.complexOfShape? shape = some e)
    : Extends made (r.complexType namespace_ [] shape made).2
        ∧
      Complete r.complexOfShape? namespace_ (r.complexType namespace_ [] shape made).2
        ∧
      ∃ t,
        (r.complexType namespace_ [] shape made).1 = some t
          ∧
        (r.complexType namespace_ [] shape made).2.lookup shape = some t := by
  have hrun := makes_complexType r namespace_ [] shape made
    (f := ⟨"", .record shape, false, false⟩) rfl
  obtain ⟨hextends, hmade', hproperties⟩ := propertiesOf_complete hmade hrun
  obtain ⟨t, ht⟩ : ∃ t, (r.complexType namespace_ [] shape made).1 = some t :=
    complexType_isSome he List.not_mem_nil
  refine ⟨hextends, hmade', t, ht, ?_⟩
  rw [ht] at hproperties
  cases hproperties with
  | complex hf hlookup =>
    cases hf
    exact hlookup
  | enumeration hf => cases hf
  | unregistered hf he' =>
    cases hf
    rw [he] at he'
    cases he'
  | absent _ _ habsent => exact habsent.elim

theorem exists_complexOfShape? {e : ComplexEntry α} (he : e ∈ r.complexTypes)
    : ∃ e', r.complexOfShape? e.shape = some e' := by
  rw [← Option.isSome_iff_exists]
  unfold complexOfShape?
  rw [List.find?_isSome]
  exact ⟨e, he, by simp⟩

theorem complexTypesOf_complete (hmade : Complete r.complexOfShape? namespace_ made)
    {es : List (ComplexEntry α)} (hes : ∀ e ∈ es, e ∈ r.complexTypes)
    : ∃ made',
        Extends made made'
          ∧
        Complete r.complexOfShape? namespace_ made'
          ∧
        List.Forall₂ (fun e t => made'.lookup e.shape = some t) es
          (r.complexTypesOf namespace_ es made) := by
  induction es generalizing made with
  | nil => exact ⟨made, extends_refl _, hmade, .nil⟩
  | cons e es ih =>
    obtain ⟨e', he'⟩ := exists_complexOfShape? (hes e List.mem_cons_self)
    obtain ⟨hextends, hmade₁, t, ht, hlookup⟩ := complexType_complete hmade he'
    obtain ⟨made', hextends', hmade', htypes⟩ := ih hmade₁ (List.forall_mem_of_forall_mem_cons hes)
    refine ⟨made', hextends.trans hextends', hmade', ?_⟩
    rw [complexTypesOf]
    dsimp
    rw [ht]
    exact .cons (hextends' _ _ hlookup) htypes

theorem exists_isModelOf {config : Config} {m : Model} (h : r.generate config = .ok m)
    : ∃ made, r.IsModelOf config made m := by
  unfold generate at h
  obtain ⟨⟨sets, made⟩, hsets, h⟩ := bind_eq_ok.mp h
  obtain ⟨hnamespace, hcontainer, hmsets, htypes⟩ := exists_of_create h
  obtain ⟨_, hmade, hsets⟩ := entitySets_complete (complete_nil _) hsets
  obtain ⟨made', hextends, hmade', hcomplex⟩ :=
    complexTypesOf_complete hmade fun e (he : e ∈ r.complexTypes) => he
  refine ⟨made', hnamespace, hcontainer, hmade', ?_, ?_⟩
  . rw [hmsets]
    exact hsets.imp fun e set ⟨hname, ht⟩ => ⟨hname, ht.mono hextends⟩
  . rw [htypes]
    exact hcomplex

end

/-! ### What the model declares -/

section

variable {r : Registry α} {namespace_ : String} {made : MadeTypes} {absent : Shape → Prop}

theorem PropertiesOf.declaresAll (hmade : Complete r.complexOfShape? namespace_ made)
    {fields : List Field} {properties : List Property}
    (h : PropertiesOf r.complexOfShape? made absent fields properties)
    : r.DeclaresAll fields properties := by
  induction h with
  | nil => exact .nil
  | simple hf _ ih => exact .cons ⟨rfl, _, hf ▸ .simple _, rfl⟩ ih
  | complex hf hlookup _ ih =>
    obtain ⟨e, he⟩ := hmade _ _ hlookup
    exact .cons ⟨rfl, _, hf ▸ .complex he.entry he.name, rfl⟩ ih
  | enumeration _ _ ih | unregistered _ _ _ ih | absent _ _ _ _ ih => exact .cons_right ih

theorem IsTypeOf.typeOf (hmade : Complete r.complexOfShape? namespace_ made) {shape : Shape}
    {e : ComplexEntry α} {t : ComplexType} (h : IsTypeOf r.complexOfShape? namespace_ made shape e t)
    : r.TypeOf shape e t :=
  ⟨h.entry, h.name, h.properties.declaresAll hmade⟩

theorem IsEntityTypeOf.entityTypeOf (hmade : Complete r.complexOfShape? namespace_ made)
    {e : SetEntry α} {t : EntityType} (h : r.IsEntityTypeOf namespace_ made e t)
    : r.EntityTypeOf e t := by
  obtain ⟨properties, hproperties, heq⟩ := h.properties
  refine ⟨h.name, h.keys, ?_, h.navigations⟩
  rw [heq]
  exact (hproperties.declaresAll hmade).asKeyOf e.keys

theorem exists_entitySet {config : Config} {m : Model} {e : SetEntry α}
    (h : r.generate config = .ok m) (he : e ∈ r.sets)
    : ∃ t,
        m.entitySet e.name = .ok ⟨e.name, t⟩
          ∧
        m.entitySetOfType? e.typeName = some ⟨e.name, t⟩
          ∧
        r.EntityTypeOf e t := by
  obtain ⟨made, hm⟩ := exists_isModelOf h
  obtain ⟨⟨name, t⟩, hmem, hname, ht⟩ := exists_of_forall₂ hm.sets he
  dsimp at hname ht
  subst hname
  have hfound : m.entitySet? e.name = some ⟨e.name, t⟩ :=
    find?_eq_some_of_nodup m.setNames_nodup hmem
  refine ⟨t, ?_, ?_, ht.entityTypeOf hm.complete⟩
  . unfold Model.entitySet
    rw [hfound]
  . rw [← ht.name]
    exact find?_eq_some_of_nodup m.typeNames_nodup hmem

theorem exists_complexType {config : Config} {m : Model} {e : ComplexEntry α} (hr : r.Distinct)
    (h : r.generate config = .ok m) (he : e ∈ r.complexTypes)
    : ∃ t, m.complexType? e.typeName = some t ∧ r.TypeOf e.shape e t := by
  obtain ⟨made, hm⟩ := exists_isModelOf h
  obtain ⟨t, hmem, hlookup⟩ := exists_of_forall₂ hm.complexTypes he
  obtain ⟨e', ht⟩ := hm.complete e.shape t hlookup
  -- No two registrations share a shape, so each of them is the one that its shape stands for.
  obtain rfl : e = e' := by simpa [complexOfShape?_of_mem hr he] using ht.entry
  refine ⟨t, ?_, ht.typeOf hm.complete⟩
  rw [← ht.name]
  exact find?_eq_some_of_nodup m.complexNames_nodup hmem

end

end Registry

end Edm
