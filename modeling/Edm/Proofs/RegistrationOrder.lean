import Edm.Proofs.Consistency

/-!
This module contains what the order of registrations has an influence on. Shapes that contain each
other have types that leave something out, and the order decides which of them does. The main
statement is that nothing else depends on the order, apart from the order within models.
-/

namespace Edm

/-- The type with another complex type in the place of its own. -/
def PropertyType.withComplex (t : ComplexType) : PropertyType → PropertyType
  | .single (.complex _) => .single (.complex t)
  | .collection kind (.complex _) => .collection kind (.complex t)
  | type => type

/-! ### Agreement -/

/--
The properties are the same, apart from those whose complex type has a `lost` name. Such a property
may be missing on one side, which has no other of its name then if the names of fields are distinct.
Within a complex type the lost names are those that are entangled with its own.
-/
inductive Agree (distinct : Prop) (entangled : String → String → Prop) :
    (String → Prop) → List Property → List Property → Prop where
  | nil {lost : String → Prop} : Agree distinct entangled lost [] []
  | same {lost : String → Prop} {p : Property} {ps qs : List Property}
      (hp : p.type.embedded? = none) (h : Agree distinct entangled lost ps qs)
      : Agree distinct entangled lost (p :: ps) (p :: qs)
  | complex {lost : String → Prop} {p : Property} {s t : ComplexType} {ps qs : List Property}
      (hp : p.type.embedded? = some s) (hnamespace : s.namespace_ = t.namespace_)
      (hname : s.name = t.name)
      (hinner : Agree distinct entangled (entangled s.name) s.properties t.properties)
      (h : Agree distinct entangled lost ps qs)
      : Agree distinct entangled lost (p :: ps) ({ p with type := p.type.withComplex t } :: qs)
  | left {lost : String → Prop} {p : Property} {t : ComplexType} {ps qs : List Property}
      (hp : p.type.embedded? = some t) (hlost : lost t.name)
      (hmissing : distinct → p.name ∉ qs.map (·.name)) (h : Agree distinct entangled lost ps qs)
      : Agree distinct entangled lost (p :: ps) qs
  | right {lost : String → Prop} {p : Property} {t : ComplexType} {ps qs : List Property}
      (hp : p.type.embedded? = some t) (hlost : lost t.name)
      (hmissing : distinct → p.name ∉ ps.map (·.name)) (h : Agree distinct entangled lost ps qs)
      : Agree distinct entangled lost ps (p :: qs)

/-- The complex types are the same, apart from types that are entangled. -/
structure ComplexType.Agrees (distinct : Prop) (entangled : String → String → Prop)
    (s t : ComplexType) : Prop where
  namespace_eq : s.namespace_ = t.namespace_
  name : s.name = t.name
  properties : Agree distinct entangled (entangled s.name) s.properties t.properties

/-- The entity types are the same, apart from types that are entangled. -/
structure EntityType.Agrees (distinct : Prop) (entangled : String → String → Prop)
    (s t : EntityType) : Prop where
  namespace_eq : s.namespace_ = t.namespace_
  name : s.name = t.name
  keys : s.keys = t.keys
  navigations : s.navigations = t.navigations
  properties : Agree distinct entangled (fun _ => False) s.properties t.properties

def Untangled (entangled : String → String → Prop) (properties : List Property) : Prop :=
  ∀ t, Occurs t properties → ∀ other, ¬ entangled t.name other

section

variable {distinct : Prop} {entangled : String → String → Prop} {lost : String → Prop}
  {ps qs : List Property}

theorem withComplex_of_embedded? {p : Property} {t : ComplexType}
    (h : p.type.embedded? = some t) : { p with type := p.type.withComplex t } = p := by
  obtain ⟨name, type, nullable⟩ := p
  unfold PropertyType.embedded? at h
  split at h
  . next htype =>
    cases h
    cases htype
    rfl
  . next htype =>
    cases h
    cases htype
    rfl
  . cases h

theorem Occurs.cons {t : ComplexType} (p : Property) (h : Occurs t ps) : Occurs t (p :: ps) := by
  cases h with
  | here hp ht => exact .here (List.mem_cons_of_mem p hp) ht
  | within hp houter h => exact .within (List.mem_cons_of_mem p hp) houter h

theorem Untangled.tail {p : Property} (h : Untangled entangled (p :: ps))
    : Untangled entangled ps := by
  intro t ht
  exact h t (ht.cons p)

theorem Untangled.inner {p : Property} {t : ComplexType} (h : Untangled entangled ps)
    (hp : p ∈ ps) (ht : p.type.embedded? = some t)
    : (∀ other, ¬ entangled t.name other) ∧ Untangled entangled t.properties :=
  ⟨h t (.here hp ht), fun inner hinner => h inner (.within hp ht hinner)⟩

theorem Agree.eq (h : Agree distinct entangled lost ps qs) (hlost : ∀ name, ¬ lost name)
    (hps : Untangled entangled ps) : ps = qs := by
  induction h with
  | nil => rfl
  | same _ _ ih => rw [ih hlost hps.tail]
  | @complex _ p s t _ _ hp hnamespace hname _ _ ihinner ih =>
    obtain ⟨hfree, hinner⟩ := hps.inner List.mem_cons_self hp
    have hst : s = t := by
      cases s
      cases t
      congr
      exact ihinner hfree hinner
    rw [← hst, withComplex_of_embedded? hp, ih hlost hps.tail]
  | left _ hlost' => exact (hlost _ hlost').elim
  | right _ hlost' => exact (hlost _ hlost').elim

theorem ComplexType.Agrees.eq {s t : ComplexType} (h : s.Agrees distinct entangled t)
    (hname : ∀ other, ¬ entangled s.name other) (hs : Untangled entangled s.properties)
    : s = t := by
  obtain ⟨hnamespace, hsame, hproperties⟩ := h
  cases s
  cases t
  congr
  exact hproperties.eq hname hs

theorem EntityType.Agrees.eq {s t : EntityType} (h : s.Agrees distinct entangled t)
    (hs : Untangled entangled s.properties) : s = t := by
  obtain ⟨hnamespace, hname, hkeys, hnavigations, hproperties⟩ := h
  cases s
  cases t
  congr
  exact hproperties.eq (fun _ => id) hs

end

namespace Registry

theorem asKeyOf_withType (keys : List String) (p : Property) (type : PropertyType)
    : Property.asKeyOf keys { p with type := type }
        = { Property.asKeyOf keys p with type := type } := by
  unfold Property.asKeyOf
  dsimp
  split
  . rfl
  . rfl

theorem agree_asKeyOf {distinct : Prop} {entangled : String → String → Prop}
    {lost : String → Prop} {ps qs : List Property} (keys : List String)
    (h : Agree distinct entangled lost ps qs)
    : Agree distinct entangled lost (ps.map (Property.asKeyOf keys))
        (qs.map (Property.asKeyOf keys)) := by
  induction h with
  | nil => exact .nil
  | same hp _ ih => exact .same ((asKeyOf_type ..).symm ▸ hp) ih
  | @complex _ p _ t _ _ hp hnamespace hname hinner _ _ ih =>
    rw [List.map_cons, List.map_cons, asKeyOf_withType, ← asKeyOf_type keys p]
    exact .complex ((asKeyOf_type ..).symm ▸ hp) hnamespace hname hinner ih
  | left hp hlost hmissing _ ih =>
    refine .left ((asKeyOf_type ..).symm ▸ hp) hlost ?_ ih
    rw [asKeyOf_name, names_asKeyOf]
    exact hmissing
  | right hp hlost hmissing _ ih =>
    refine .right ((asKeyOf_type ..).symm ▸ hp) hlost ?_ ih
    rw [asKeyOf_name, names_asKeyOf]
    exact hmissing

/-! ### Two tables -/

variable {α : Type}

section

variable {registered? : Shape → Option (ComplexEntry α)} {namespace_ : String}
  {made made' : MadeTypes} {absent absent' : Shape → Prop} {f : Field} {fields : List Field}
  {properties : List Property}

/-- Complex types of the two names have shapes that are not the same and contain each other. -/
def Entangled (registered? : Shape → Option (ComplexEntry α)) (name other : String) : Prop :=
  ∃ shape shape' e e',
    registered? shape = some e
      ∧
    e.typeName = name
      ∧
    registered? shape' = some e'
      ∧
    e'.typeName = other
      ∧
    shape ≠ shape'
      ∧
    Contains registered? shape shape'
      ∧
    Contains registered? shape' shape

theorem PropertiesOf.of_simple {t : SimpleType}
    (h : PropertiesOf registered? made absent (f :: fields) properties) (hf : f.type = .simple t)
    : ∃ rest,
        PropertiesOf registered? made absent fields rest
          ∧
        properties = f.propertyFor (.simple t) :: rest := by
  cases h with
  | simple hf' h =>
    rw [hf] at hf'
    cases hf'
    exact ⟨_, h, rfl⟩
  | enumeration hf' | complex hf' | unregistered hf' | absent hf' =>
    rw [hf] at hf'
    cases hf'

theorem PropertiesOf.of_enumeration {name : String}
    (h : PropertiesOf registered? made absent (f :: fields) properties)
    (hf : f.type = .enumeration name) : PropertiesOf registered? made absent fields properties := by
  cases h with
  | enumeration _ h => exact h
  | simple hf' | complex hf' | unregistered hf' | absent hf' =>
    rw [hf] at hf'
    cases hf'

theorem PropertiesOf.of_record {shape : Shape}
    (h : PropertiesOf registered? made absent (f :: fields) properties)
    (hf : f.type = .record shape)
    : ∃ rest,
        PropertiesOf registered? made absent fields rest
          ∧
        ((∃ t, made.lookup shape = some t ∧ properties = f.propertyFor (.complex t) :: rest)
          ∨
        (registered? shape = none ∨ absent shape) ∧ properties = rest) := by
  cases h with
  | complex hf' hlookup h =>
    rw [hf] at hf'
    cases hf'
    exact ⟨_, h, .inl ⟨_, hlookup, rfl⟩⟩
  | unregistered hf' he h =>
    rw [hf] at hf'
    cases hf'
    exact ⟨_, h, .inr ⟨.inl he, rfl⟩⟩
  | absent hf' _ habsent h =>
    rw [hf] at hf'
    cases hf'
    exact ⟨_, h, .inr ⟨.inr habsent, rfl⟩⟩
  | simple hf' | enumeration hf' =>
    rw [hf] at hf'
    cases hf'

/-- A property has the type that the table has for the shape of a field. -/
structure Embeds (made : MadeTypes) (fields : List Field) (properties : List Property)
    (shape : Shape) (t : ComplexType) : Prop where
  lookup : made.lookup shape = some t
  field : ∃ f ∈ fields, f.type = .record shape
  property : ∃ p ∈ properties, p.type.embedded? = some t

theorem Embeds.mono {fields' : List Field} {properties' : List Property} {shape : Shape}
    {t : ComplexType} (h : Embeds made fields properties shape t) (hfields : fields ⊆ fields')
    (hproperties : properties ⊆ properties') : Embeds made fields' properties' shape t := by
  obtain ⟨hlookup, ⟨f, hf, hshape⟩, p, hp, ht⟩ := h
  exact ⟨hlookup, ⟨f, hfields hf, hshape⟩, p, hproperties hp, ht⟩

theorem embeds_propertyFor {shape : Shape} {t : ComplexType} (hf : f.type = .record shape)
    (ht : made.lookup shape = some t)
    : Embeds made (f :: fields) (f.propertyFor (.complex t) :: properties) shape t :=
  ⟨ht, ⟨f, List.mem_cons_self, hf⟩, _, List.mem_cons_self, embedded?_propertyFor_complex f t⟩

theorem propertyFor_withComplex (f : Field) (s t : ComplexType)
    : f.propertyFor (.complex t)
        = { f.propertyFor (.complex s) with
            type := (f.propertyFor (.complex s)).type.withComplex t } := by
  unfold Field.propertyFor
  cases f.collection <;> rfl

theorem PropertiesOf.mem_names (h : PropertiesOf registered? made absent fields properties)
    {name : String} (hname : name ∈ properties.map (·.name)) : name ∈ fields.map (·.name) := by
  obtain ⟨p, hp, rfl⟩ := List.mem_map.mp hname
  obtain ⟨f, hf, ⟨t, rfl⟩ | ⟨shape, t, _, rfl⟩⟩ := h.exists_field hp
  . exact List.mem_map_of_mem hf
  . exact List.mem_map_of_mem hf

theorem PropertiesOf.agree {distinct : Prop} {entangled : String → String → Prop}
    {lost : String → Prop} {ps qs : List Property}
    (h : PropertiesOf registered? made absent fields ps)
    (h' : PropertiesOf registered? made' absent' fields qs)
    (hdistinct : distinct → (fields.map (·.name)).Nodup)
    (hagrees : ∀ shape s t, Embeds made fields ps shape s → made'.lookup shape = some t →
      s.Agrees distinct entangled t)
    (hleft : ∀ shape s, Embeds made fields ps shape s → registered? shape = none ∨ absent' shape →
      lost s.name)
    (hright : ∀ shape t, Embeds made' fields qs shape t → registered? shape = none ∨ absent shape →
      lost t.name)
    : Agree distinct entangled lost ps qs := by
  induction fields generalizing ps qs with
  | nil =>
    cases h
    cases h'
    exact .nil
  | cons f fields ih =>
    -- What holds of all the properties holds of those of the fields that are left.
    have hrest : ∀ {ps' qs'}, PropertiesOf registered? made absent fields ps' →
        PropertiesOf registered? made' absent' fields qs' → ps' ⊆ ps → qs' ⊆ qs →
        Agree distinct entangled lost ps' qs' := by
      intro ps' qs' hps hqs hsub hsub'
      have hfields : fields ⊆ f :: fields := List.subset_cons_self f fields
      apply ih hps hqs
      . exact fun h => (List.nodup_cons.mp (hdistinct h)).2
      . intro shape s t hs
        exact hagrees shape s t (hs.mono hfields hsub)
      . intro shape s hs
        exact hleft shape s (hs.mono hfields hsub)
      . intro shape t ht
        exact hright shape t (ht.mono hfields hsub')
    cases hf : f.type with
    | simple t =>
      obtain ⟨ps', hps, rfl⟩ := h.of_simple hf
      obtain ⟨qs', hqs, rfl⟩ := h'.of_simple hf
      exact .same (embedded?_propertyFor_simple f t)
        (hrest hps hqs (List.subset_cons_self ..) (List.subset_cons_self ..))
    | enumeration name =>
      exact hrest (h.of_enumeration hf) (h'.of_enumeration hf) (List.Subset.refl _)
        (List.Subset.refl _)
    | record shape =>
      obtain ⟨ps', hps, ⟨s, hs, rfl⟩ | ⟨habsent, rfl⟩⟩ := h.of_record hf
      . have hembeds
            : Embeds made (f :: fields) (f.propertyFor (.complex s) :: ps') shape s :=
          embeds_propertyFor hf hs
        obtain ⟨qs', hqs, ⟨t, ht, rfl⟩ | ⟨habsent', rfl⟩⟩ := h'.of_record hf
        . obtain ⟨hnamespace, hname, hinner⟩ := hagrees shape s t hembeds ht
          rw [propertyFor_withComplex f s t]
          exact .complex (embedded?_propertyFor_complex f s) hnamespace hname hinner
            (hrest hps hqs (List.subset_cons_self ..) (List.subset_cons_self ..))
        . exact .left (embedded?_propertyFor_complex f s) (hleft shape s hembeds habsent')
            (fun h hmem => (List.nodup_cons.mp (hdistinct h)).1 (hqs.mem_names hmem))
            (hrest hps hqs (List.subset_cons_self ..) (List.Subset.refl _))
      . obtain ⟨qs', hqs, ⟨t, ht, rfl⟩ | ⟨_, rfl⟩⟩ := h'.of_record hf
        . exact .right (embedded?_propertyFor_complex f t)
            (hright shape t (embeds_propertyFor hf ht) habsent)
            (fun h hmem => (List.nodup_cons.mp (hdistinct h)).1 (hps.mem_names hmem))
            (hrest hps hqs (List.Subset.refl _) (List.subset_cons_self ..))
        . exact hrest hps hqs (List.Subset.refl _) (List.Subset.refl _)

theorem Complete.entry_ne_none (hmade : Complete registered? namespace_ made) {shape : Shape}
    {t : ComplexType} (ht : made.lookup shape = some t) : registered? shape ≠ none := by
  obtain ⟨e, he⟩ := hmade shape t ht
  rw [he.entry]
  exact Option.some_ne_none e

/-- A type that another table lacks in the same place has a shape that leads back. -/
theorem IsTypeOf.entangled {shape other : Shape} {e : ComplexEntry α} {t inner : ComplexType}
    (ht : IsTypeOf registered? namespace_ made shape e t)
    (hmade : Complete registered? namespace_ made) (hlookup : made.lookup shape = some t)
    (hinner : Embeds made e.accessor.fields t.properties other inner)
    (habsent : registered? other = none ∨ Contains registered? other shape)
    : Entangled registered? t.name inner.name := by
  obtain ⟨e', he'⟩ := hmade other inner hinner.lookup
  obtain ⟨f, hf, hother⟩ := hinner.field
  rcases habsent with hnone | hback
  . exact (hmade.entry_ne_none hinner.lookup hnone).elim
  . refine ⟨shape, other, e, e', ht.entry, ht.name.symm, he'.entry, he'.name.symm, ?_,
      .single ⟨e, f, ht.entry, hf, hother⟩, hback⟩
    -- Otherwise the type would be a part of itself.
    rintro rfl
    obtain ⟨p, hp, hembedded⟩ := hinner.property
    have hsame : inner = t := by
      have hlookup' := hinner.lookup
      rw [hlookup] at hlookup'
      cases hlookup'
      rfl
    subst hsame
    exact Nat.lt_asymm (Occurs.here hp hembedded).sizeOf_lt (sizeOf_properties_lt inner)

theorem Complete.agrees {distinct : Prop}
    (hdistinct : ∀ shape e, registered? shape = some e →
      distinct → (e.accessor.fields.map (·.name)).Nodup)
    (hmade : Complete registered? namespace_ made) (hmade' : Complete registered? namespace_ made')
    {shape : Shape} {s t : ComplexType} (hs : made.lookup shape = some s)
    (ht : made'.lookup shape = some t) : s.Agrees distinct (Entangled registered?) t := by
  obtain ⟨e, hse⟩ := hmade shape s hs
  obtain ⟨e', hte⟩ := hmade' shape t ht
  have hsame : e = e' := by
    have hentry := hse.entry
    rw [hte.entry] at hentry
    cases hentry
    rfl
  subst hsame
  have hname : s.name = t.name := by
    rw [hse.name, hte.name]
  refine ⟨hse.namespace_eq.trans hte.namespace_eq.symm, hname, ?_⟩
  apply hse.properties.agree hte.properties (hdistinct shape e hse.entry)
  . intro other s' t' hs' ht'
    obtain ⟨p, hp, hembedded⟩ := hs'.property
    have hlt : sizeOf s' < sizeOf s :=
      Nat.lt_trans (Occurs.here hp hembedded).sizeOf_lt (sizeOf_properties_lt s)
    exact hmade.agrees hdistinct hmade' hs'.lookup ht'
  . intro other s' hs' habsent
    exact hse.entangled hmade hs hs' habsent
  . intro other t' ht' habsent
    rw [hname]
    exact hte.entangled hmade' ht ht' habsent
termination_by sizeOf s

end

/-! ### The order of registrations -/

section

variable {β γ δ κ : Type} [DecidableEq κ] {R : β → γ → Prop} {R' : β → δ → Prop} {S : γ → δ → Prop}
  {f : γ → κ} {g : δ → κ} {bs bs' : List β} {cs : List γ} {ds : List δ}

theorem exists_of_forall₂_perm (h : List.Forall₂ R bs cs) (h' : List.Forall₂ R' bs' ds)
    (hperm : bs.Perm bs') {c : γ} (hc : c ∈ cs) : ∃ b ∈ bs, R b c ∧ ∃ d ∈ ds, R' b d := by
  obtain ⟨b, hb, hR⟩ := exists_of_forall₂ (List.Forall₂.flip (R := flip _) h) hc
  exact ⟨b, hb, hR, exists_of_forall₂ h' (hperm.mem_iff.mp hb)⟩

theorem rel_find? (h : List.Forall₂ R bs cs) (h' : List.Forall₂ R' bs' ds) (hperm : bs.Perm bs')
    (hnodup : (ds.map g).Nodup) (hS : ∀ b ∈ bs, ∀ c d, R b c → R' b d → f c = g d ∧ S c d) (key : κ)
    : Option.Rel S (cs.find? fun c => f c == key) (ds.find? fun d => g d == key) := by
  cases hfind : cs.find? fun c => f c == key with
  | some c =>
    obtain ⟨b, hb, hc, d, hd, hbd⟩ :=
      exists_of_forall₂_perm h h' hperm (List.mem_of_find?_eq_some hfind)
    obtain ⟨hkey, hS⟩ := hS b hb c d hc hbd
    have hfound : f c = key := by simpa using List.find?_some hfind
    rw [(find?_eq_some_iff_of_nodup hnodup).mpr ⟨hd, hkey.symm.trans hfound⟩]
    exact .some hS
  | none =>
    have hnone : (ds.find? fun d => g d == key) = none := by
      rw [List.find?_eq_none] at hfind ⊢
      intro d hd hfound
      obtain ⟨b, hb, hbd, c, hc, hbc⟩ := exists_of_forall₂_perm h' h hperm.symm hd
      apply hfind c hc
      rw [(hS b (hperm.mem_iff.mpr hb) c d hbc hbd).1]
      exact hfound
    rw [hnone]
    exact .none

end

section

variable {r r' : Registry α} {config : Config} {made made' : MadeTypes} {m m' : Model}

theorem AllFieldsDistinct.nodup_of_complexOfShape? {shape : Shape} {e : ComplexEntry α}
    (h : r.complexOfShape? shape = some e) (hr : r.AllFieldsDistinct)
    : (e.accessor.fields.map (·.name)).Nodup :=
  hr.complexTypes e (mem_of_complexOfShape? h).1

theorem complexOfShape?_perm (hr : r.Distinct) (h : r.complexTypes.Perm r'.complexTypes)
    : r.complexOfShape? = r'.complexOfShape? := by
  funext shape
  exact find?_eq_of_perm hr.complexShapes h shape

theorem navigation?_perm (hr : r.Distinct) (h : r.sets.Perm r'.sets)
    : r.navigation? = r'.navigation? := by
  have hsets : r.setOfShape? = r'.setOfShape? := by
    funext shape
    exact find?_eq_of_perm hr.setShapes h shape
  funext f
  unfold navigation?
  rw [hsets]

theorem IsEntityTypeOf.agrees (hr : r.Distinct) (hsets : r.sets.Perm r'.sets)
    (hcomplex : r.complexTypes.Perm r'.complexTypes) {namespace_ : String}
    (hmade : Complete r.complexOfShape? namespace_ made)
    (hmade' : Complete r.complexOfShape? namespace_ made') {e : SetEntry α} {t t' : EntityType}
    (he : e ∈ r.sets) (ht : r.IsEntityTypeOf namespace_ made e t)
    (ht' : r'.IsEntityTypeOf namespace_ made' e t')
    : t.Agrees r.AllFieldsDistinct (Entangled r.complexOfShape?) t' := by
  obtain ⟨properties, hproperties, hshown⟩ := ht.properties
  obtain ⟨properties', hproperties', hshown'⟩ := ht'.properties
  rw [← complexOfShape?_perm hr hcomplex, ← navigation?_perm hr hsets] at hproperties'
  refine ⟨ht.namespace_eq.trans ht'.namespace_eq.symm, ht.name.trans ht'.name.symm,
    ht.keys.trans ht'.keys.symm, ?_, ?_⟩
  . rw [ht.navigations, ht'.navigations, navigation?_perm hr hsets]
  . rw [hshown, hshown']
    apply agree_asKeyOf
    apply hproperties.agree hproperties'
    . exact fun h => (h.sets e he).sublist (List.filter_sublist.map _)
    . intro shape s t hs hlookup
      exact hmade.agrees (fun _ _ => AllFieldsDistinct.nodup_of_complexOfShape?) hmade' hs.lookup
        hlookup
    . rintro shape s hs (hnone | habsent)
      . exact hmade.entry_ne_none hs.lookup hnone
      . exact habsent
    . rintro shape t ht (hnone | habsent)
      . exact hmade'.entry_ne_none ht.lookup hnone
      . exact habsent

/--
Models of the same registrations in different orders have the same sets and types. Their properties
are the same as well, apart from types that are entangled.
-/
theorem generate_perm (hr : r.Distinct) (hsets : r.sets.Perm r'.sets)
    (hcomplex : r.complexTypes.Perm r'.complexTypes) (h : r.generate config = .ok m)
    (h' : r'.generate config = .ok m')
    : m.namespace_ = m'.namespace_
        ∧
      m.containerName = m'.containerName
        ∧
      ∀ name,
        Option.Rel
            (fun set set' =>
              set.type.Agrees r.AllFieldsDistinct (Entangled r.complexOfShape?) set'.type)
            (m.entitySet? name) (m'.entitySet? name)
          ∧
        Option.Rel
            (fun t t' =>
              t.Agrees r.AllFieldsDistinct (Entangled r.complexOfShape?) t'
                ∧
              (Untangled (Entangled r.complexOfShape?) t.properties → t = t'))
            (m.entityType? name) (m'.entityType? name)
          ∧
        Option.Rel
            (fun t t' =>
              t.Agrees r.AllFieldsDistinct (Entangled r.complexOfShape?) t'
                ∧
              ((∀ other, ¬ Entangled r.complexOfShape? t.name other) →
                Untangled (Entangled r.complexOfShape?) t.properties → t = t'))
            (m.complexType? name) (m'.complexType? name) := by
  obtain ⟨made, hm⟩ := exists_isModelOf h
  obtain ⟨made', hm'⟩ := exists_isModelOf h'
  have hmade' : Complete r.complexOfShape? config.namespace_ made' := by
    rw [complexOfShape?_perm hr hcomplex]
    exact hm'.complete
  refine ⟨hm.namespace_eq.trans hm'.namespace_eq.symm,
    hm.containerName.trans hm'.containerName.symm, ?_⟩
  intro name
  refine ⟨?_, ?_, ?_⟩
  . apply rel_find? hm.sets hm'.sets hsets m'.setNames_nodup
    intro e he set set' ⟨hname, ht⟩ ⟨hname', ht'⟩
    exact ⟨hname.trans hname'.symm, ht.agrees hr hsets hcomplex hm.complete hmade' he ht'⟩
  . have htypes := List.forall₂_map_right_iff.mpr (hm.sets.imp fun _ _ h => h.2)
    have htypes' := List.forall₂_map_right_iff.mpr (hm'.sets.imp fun _ _ h => h.2)
    have hnodup : (m'.entityTypes.map (·.name)).Nodup := by
      unfold Model.entityTypes
      rw [List.map_map]
      exact m'.typeNames_nodup
    apply rel_find? htypes htypes' hsets hnodup
    intro e he t t' ht ht'
    have hagrees := ht.agrees hr hsets hcomplex hm.complete hmade' he ht'
    exact ⟨hagrees.name, hagrees, hagrees.eq⟩
  . apply rel_find? hm.complexTypes hm'.complexTypes hcomplex m'.complexNames_nodup
    intro e _ t t' ht ht'
    have hagrees := hm.complete.agrees (fun _ _ => AllFieldsDistinct.nodup_of_complexOfShape?) hmade'
      ht ht'
    exact ⟨hagrees.name, hagrees, hagrees.eq⟩

end

end Registry

/-! ### Teams before members, and members before teams -/

namespace Teams

def contests : SetEntry (Dynamic Empty) where
  name := "Contests"
  typeName := "Contest"
  shape := ⟨"contest"⟩
  accessor := Bag.rawAccessor [
    ⟨"Id", .simple .int32, false, true⟩,
    ⟨"Winner", .record teamShape, false, true⟩]
  keys := ["Id"]
  records := []
  hooks? := none

/-- The type of contests that are won by teams of the given type. -/
def contestType (winner : ComplexType) : EntityType where
  namespace_ := "InMemory"
  name := "Contest"
  keys := ["Id"]
  properties := [⟨"Id", .simple .int32, false⟩, ⟨"Winner", .complex winner, true⟩]
  navigations := []

def teamMemberType : ComplexType where
  namespace_ := "InMemory"
  name := "Member"
  properties := [⟨"Name", .simple .string, true⟩]

def fullTeamType : ComplexType where
  namespace_ := "InMemory"
  name := "Team"
  properties := [
    ⟨"Title", .simple .string, true⟩,
    ⟨"Members", .collection .list (.complex teamMemberType), false⟩]

def teamsFirst : Registry (Dynamic Empty) := ⟨[contests, projects], [team, member]⟩

def membersFirst : Registry (Dynamic Empty) := ⟨[projects, contests], [member, team]⟩

def teamsFirstModel : Model where
  namespace_ := "InMemory"
  containerName := "Container"
  sets := [⟨"Contests", contestType fullTeamType⟩, ⟨"Projects", projectType teamMemberType⟩]
  complexTypes := [fullTeamType, teamMemberType]
  setNames_nodup := by decide
  typeNames_nodup := by decide
  complexNames_nodup := by decide

def membersFirstModel : Model where
  namespace_ := "InMemory"
  containerName := "Container"
  sets := [⟨"Projects", projectType memberType⟩, ⟨"Contests", contestType teamType⟩]
  complexTypes := [memberType, teamType]
  setNames_nodup := by decide
  typeNames_nodup := by decide
  complexNames_nodup := by decide

theorem generate_teamsFirst : teamsFirst.generate {} = .ok teamsFirstModel := by
  cbv

theorem generate_membersFirst : membersFirst.generate {} = .ok membersFirstModel := by
  cbv

theorem teamsFirst_distinct : teamsFirst.Distinct where
  setNames := by decide
  setShapes := by decide
  complexShapes := by decide

theorem teamsFirst_allFieldsDistinct : teamsFirst.AllFieldsDistinct where
  sets := by
    unfold Registry.FieldsDistinct
    decide
  complexTypes := by decide

theorem sets_perm : teamsFirst.sets.Perm membersFirst.sets := .swap ..

theorem complexTypes_perm : teamsFirst.complexTypes.Perm membersFirst.complexTypes := .swap ..

theorem teams_agree
    : teamsFirst.Distinct
        ∧
      teamsFirst.sets.Perm membersFirst.sets
        ∧
      teamsFirst.complexTypes.Perm membersFirst.complexTypes
        ∧
      teamsFirst.generate {} = .ok teamsFirstModel
        ∧
      membersFirst.generate {} = .ok membersFirstModel
        ∧
      teamsFirst.AllFieldsDistinct
        ∧
      (projectType teamMemberType).Agrees teamsFirst.AllFieldsDistinct
        (Registry.Entangled teamsFirst.complexOfShape?) (projectType memberType)
        ∧
      fullTeamType.Agrees teamsFirst.AllFieldsDistinct
        (Registry.Entangled teamsFirst.complexOfShape?) teamType := by
  obtain ⟨_, _, h⟩ := Registry.generate_perm teamsFirst_distinct sets_perm complexTypes_perm
    generate_teamsFirst generate_membersFirst
  have hprojects
      : Option.Rel _ (some (projectType teamMemberType)) (some (projectType memberType)) :=
    (h "Project").2.1
  have hteams : Option.Rel _ (some fullTeamType) (some teamType) := (h "Team").2.2
  cases hprojects with
  | some hproject =>
    cases hteams with
    | some hteam =>
      exact ⟨teamsFirst_distinct, sets_perm, complexTypes_perm, generate_teamsFirst,
        generate_membersFirst, teamsFirst_allFieldsDistinct, hproject.1, hteam.1⟩

/-- The order decides whether teams have a property for their members. -/
theorem members_lost
    : teamsFirst.Distinct
        ∧
      teamsFirst.sets.Perm membersFirst.sets
        ∧
      teamsFirst.complexTypes.Perm membersFirst.complexTypes
        ∧
      teamsFirst.generate {} = .ok teamsFirstModel
        ∧
      membersFirst.generate {} = .ok membersFirstModel
        ∧
      (teamsFirstModel.complexType? "Team").map (·.properties.map (·.name))
        = some ["Title", "Members"]
        ∧
      (membersFirstModel.complexType? "Team").map (·.properties.map (·.name)) = some ["Title"] :=
  ⟨teamsFirst_distinct, sets_perm, complexTypes_perm, generate_teamsFirst, generate_membersFirst,
    rfl, rfl⟩

end Teams

end Edm
