import Edm.Proofs.Consistency

/-!
This module contains when registrations have no model. The main statement is that this is so just
if a set has no key, or one that is no property, or if two types share a name. Shapes that refer to
each other, or to none that is registered, are no obstacle.
-/

namespace Edm

variable {α : Type}

def Failure.IsMetadata (failure : Failure) : Prop := ∃ cause, failure = .invalidMetadata cause

open Edm.Failure (IsMetadata)

/-! ### The rules of models -/

theorem EntityType.create_isOk_iff {namespace_ name : String} {keys : List String}
    {properties : List Property} {navigations : List Navigation}
    : (∃ t, create namespace_ name keys properties navigations = .ok t)
        ↔
      keys ≠ [] ∧ ∀ key ∈ keys, key ∈ properties.map (·.name) := by
  unfold create
  split
  . next hempty =>
    rw [List.isEmpty_iff] at hempty
    simp [hempty]
  . next hkeys =>
    rw [List.isEmpty_iff] at hkeys
    split
    . next key hkey =>
      have hmem := List.mem_of_find?_eq_some hkey
      have hnone := List.find?_some hkey
      simp only [Bool.not_eq_true', List.any_eq_false, beq_iff_eq] at hnone
      constructor
      . rintro ⟨t, h⟩
        cases h
      . rintro ⟨_, hall⟩
        obtain ⟨p, hp, hname⟩ := List.mem_map.mp (hall key hmem)
        exact (hnone p hp hname).elim
    . next hnone =>
      refine ⟨fun _ => ⟨hkeys, ?_⟩, fun _ => ⟨_, rfl⟩⟩
      intro key hkey
      simpa using List.find?_eq_none.mp hnone key hkey

theorem EntityType.create_failsWith (namespace_ name : String) (keys : List String)
    (properties : List Property) (navigations : List Navigation)
    : FailsWith IsMetadata (create namespace_ name keys properties navigations) := by
  unfold create
  split
  . exact failsWith_error.mpr ⟨_, rfl⟩
  . split
    . exact failsWith_error.mpr ⟨_, rfl⟩
    . apply failsWith_ok

namespace Model

theorem checkUnique_isOk_iff {kind : NameSpace} {names : List String}
    : (∃ unique, checkUnique kind names = .ok unique) ↔ names.Nodup := by
  unfold checkUnique
  split
  . next name hname =>
    rw [← firstRepeated?_eq_none_iff, hname]
    simp
  . next hnone => simp [firstRepeated?_eq_none_iff.mp hnone]

theorem checkUnique_failsWith (kind : NameSpace) (names : List String)
    : FailsWith IsMetadata (checkUnique kind names) := by
  unfold checkUnique
  split
  . exact failsWith_error.mpr ⟨_, rfl⟩
  . apply failsWith_ok

theorem create_isOk_iff {namespace_ containerName : String} {sets : List EntitySet}
    {types : List ComplexType}
    : (∃ m, create namespace_ containerName sets types = .ok m)
        ↔
      (sets.map (·.name)).Nodup ∧ (sets.map (·.type.name)).Nodup ∧ (types.map (·.name)).Nodup := by
  unfold create
  constructor
  . rintro ⟨m, h⟩
    obtain ⟨⟨hsets⟩, _, h⟩ := bind_eq_ok.mp h
    obtain ⟨⟨htypes⟩, _, h⟩ := bind_eq_ok.mp h
    obtain ⟨⟨hcomplex⟩, _, h⟩ := bind_eq_ok.mp h
    exact ⟨hsets, htypes, hcomplex⟩
  . rintro ⟨hsets, htypes, hcomplex⟩
    obtain ⟨⟨_⟩, hsets⟩ := checkUnique_isOk_iff.mpr hsets
    obtain ⟨⟨_⟩, htypes⟩ := checkUnique_isOk_iff.mpr htypes
    obtain ⟨⟨_⟩, hcomplex⟩ := checkUnique_isOk_iff.mpr hcomplex
    rw [hsets, htypes, hcomplex]
    exact ⟨_, rfl⟩

theorem create_failsWith (namespace_ containerName : String) (sets : List EntitySet)
    (types : List ComplexType)
    : FailsWith IsMetadata (create namespace_ containerName sets types) := by
  unfold create
  apply (checkUnique_failsWith _ _).bind
  intro _
  apply (checkUnique_failsWith _ _).bind
  intro _
  apply (checkUnique_failsWith _ _).bind
  intro _
  apply failsWith_pure

end Model

namespace Registry

inductive Built : Registry α → Prop where
  | empty : Built {}
  | addSet {r r' : Registry α} {e : SetEntry α} (hr : Built r) (h : r.addSet? e = some r') : Built r'
  | addComplexType {r : Registry α} (hr : Built r) (e : ComplexEntry α) : Built (r.addComplexType e)

theorem Built.distinct {r : Registry α} (hr : r.Built) : r.Distinct := by
  induction hr with
  | empty => exact distinct_empty
  | addSet _ h ih => exact ih.addSet? h
  | addComplexType _ e ih => exact ih.addComplexType e

/-- The field, or the items of it, are simple values or complex values. -/
def IsStructural (r : Registry α) (f : Field) : Prop :=
  (∃ t, f.type = .simple t)
    ∨
  ∃ shape e, f.type = .record shape ∧ r.setOfShape? shape = none ∧ r.complexOfShape? shape = some e

theorem not_isStructural_of_setOfShape? {r : Registry α} {f : Field} {shape : Shape}
    {e : SetEntry α} (hshape : f.type = .record shape) (he : r.setOfShape? shape = some e)
    : ¬ r.IsStructural f := by
  rintro (⟨t, ht⟩ | ⟨shape', _, hshape', hnone, _⟩)
  . cases hshape.symm.trans ht
  . cases hshape.symm.trans hshape'
    cases he.symm.trans hnone

/-- The entities of the set are identified by some of their properties. -/
def IsKeyed (r : Registry α) (e : SetEntry α) : Prop :=
  e.keys ≠ [] ∧ ∀ key ∈ e.keys, ∃ f ∈ e.accessor.fields, f.name = key ∧ r.IsStructural f

theorem not_isKeyed_iff {r : Registry α} {e : SetEntry α}
    : ¬ r.IsKeyed e
        ↔
      e.keys = []
        ∨
      ∃ key ∈ e.keys, ∀ f ∈ e.accessor.fields, f.name = key → ¬ r.IsStructural f := by
  rw [IsKeyed, not_and_or, not_not]
  push Not
  rfl

/-! ### Keys -/

section

variable {r : Registry α} {namespace_ : String} {made made' : MadeTypes}

theorem PropertiesOf.mem_names_iff {registered? : Shape → Option (ComplexEntry α)}
    (hmade : Complete registered? namespace_ made) {fields : List Field}
    {properties : List Property}
    (h : PropertiesOf registered? made (fun _ => False) fields properties) {name : String}
    : name ∈ properties.map (·.name)
        ↔
      ∃ f ∈ fields, f.name = name ∧
        ((∃ t, f.type = .simple t) ∨ ∃ shape e, f.type = .record shape ∧ registered? shape = some e)
      := by
  induction h with
  | nil => simp
  | simple hf _ ih =>
    rw [List.map_cons, List.mem_cons, ih, propertyFor_name, eq_comm]
    simp [hf]
  | enumeration hf _ ih => simp [ih, hf]
  | complex hf hlookup _ ih =>
    obtain ⟨e, he⟩ := hmade _ _ hlookup
    rw [List.map_cons, List.mem_cons, ih, propertyFor_name, eq_comm]
    simp [hf, he.entry]
  | unregistered hf he _ ih => simp [ih, hf, he]
  | absent _ _ habsent => exact habsent.elim

theorem navigation?_isNone_iff {f : Field}
    : (r.navigation? f).isNone = true
        ↔
      ∀ shape, f.type = .record shape → r.setOfShape? shape = none := by
  unfold navigation?
  cases f.type with
  | simple t | enumeration name => simp
  | record shape => simp

theorem exists_structural_iff {fields : List Field} {key : String}
    : (∃ f ∈ fields.filter fun f => (r.navigation? f).isNone, f.name = key ∧
        ((∃ t, f.type = .simple t)
          ∨
        ∃ shape e, f.type = .record shape ∧ r.complexOfShape? shape = some e))
        ↔
      ∃ f ∈ fields, f.name = key ∧ r.IsStructural f := by
  constructor
  . rintro ⟨f, hf, hname, hkind⟩
    obtain ⟨hf, hnone⟩ := List.mem_filter.mp hf
    refine ⟨f, hf, hname, hkind.imp_right ?_⟩
    rintro ⟨shape, e, hshape, he⟩
    exact ⟨shape, e, hshape, navigation?_isNone_iff.mp hnone shape hshape, he⟩
  . rintro ⟨f, hf, hname, ⟨t, ht⟩ | ⟨shape, e, hshape, hset, he⟩⟩
    . refine ⟨f, List.mem_filter.mpr ⟨hf, navigation?_isNone_iff.mpr ?_⟩, hname, .inl ⟨t, ht⟩⟩
      intro shape hshape
      rw [ht] at hshape
      cases hshape
    . refine ⟨f, List.mem_filter.mpr ⟨hf, navigation?_isNone_iff.mpr ?_⟩, hname,
        .inr ⟨shape, e, hshape, he⟩⟩
      intro shape' hshape'
      rw [hshape] at hshape'
      cases hshape'
      exact hset

theorem entityType_isOk_iff (hmade : Complete r.complexOfShape? namespace_ made) {e : SetEntry α}
    : (∃ t, r.entityType namespace_ e made = .ok t) ↔ r.IsKeyed e := by
  obtain ⟨_, hmade', hproperties⟩ := propertiesOf_complete hmade
    (makes_propertiesOf r namespace_ [] (e.accessor.fields.filter fun f => (r.navigation? f).isNone)
      made)
  unfold entityType
  dsimp
  rw [IsKeyed]
  simp only [← exists_structural_iff, ← hproperties.mem_names_iff hmade']
  rw [← names_asKeyOf e.keys, ← EntityType.create_isOk_iff]
  constructor
  . rintro ⟨⟨t, made'⟩, h⟩
    obtain ⟨t, ht, _⟩ := bind_eq_ok.mp h
    exact ⟨t, ht⟩
  . rintro ⟨t, ht⟩
    rw [ht]
    exact ⟨_, rfl⟩

theorem entityType_failsWith (r : Registry α) (namespace_ : String) (e : SetEntry α)
    (made : MadeTypes) : FailsWith IsMetadata (r.entityType namespace_ e made) := by
  unfold entityType
  apply (EntityType.create_failsWith _ _ _ _ _).bind
  intro t
  apply failsWith_pure

/-! ### Sets and types -/

theorem entitySets_isOk_iff (hmade : Complete r.complexOfShape? namespace_ made)
    {es : List (SetEntry α)}
    : (∃ sets, r.entitySets namespace_ es made = .ok sets) ↔ ∀ e ∈ es, r.IsKeyed e := by
  induction es generalizing made with
  | nil => simp [entitySets]
  | cons e es ih =>
    rw [List.forall_mem_cons, ← entityType_isOk_iff hmade, entitySets]
    constructor
    . rintro ⟨sets, h⟩
      obtain ⟨⟨t, made₁⟩, ht, h⟩ := bind_eq_ok.mp h
      obtain ⟨sets', hsets, _⟩ := bind_eq_ok.mp h
      obtain ⟨_, hmade₁, _⟩ := entityType_complete hmade ht
      exact ⟨⟨_, ht⟩, (ih hmade₁).mp ⟨sets', hsets⟩⟩
    . rintro ⟨⟨⟨t, made₁⟩, ht⟩, hkeyed⟩
      obtain ⟨_, hmade₁, _⟩ := entityType_complete hmade ht
      obtain ⟨sets', hsets⟩ := (ih hmade₁).mpr hkeyed
      rw [ht, ok_bind]
      dsimp
      rw [hsets]
      exact ⟨_, rfl⟩

theorem entitySets_failsWith (r : Registry α) (namespace_ : String) (es : List (SetEntry α))
    (made : MadeTypes) : FailsWith IsMetadata (r.entitySets namespace_ es made) := by
  induction es generalizing made with
  | nil => apply failsWith_ok
  | cons e es ih =>
    rw [entitySets]
    apply (entityType_failsWith r namespace_ e made).bind
    rintro ⟨t, made₁⟩
    apply (ih made₁).bind
    intro sets
    apply failsWith_pure

theorem names_entitySets (hmade : Complete r.complexOfShape? namespace_ made)
    {es : List (SetEntry α)} {sets : List EntitySet}
    (h : r.entitySets namespace_ es made = .ok (sets, made'))
    : sets.map (·.name) = es.map (·.name) ∧ sets.map (·.type.name) = es.map (·.typeName) := by
  obtain ⟨_, _, hsets⟩ := entitySets_complete hmade h
  clear h
  induction hsets with
  | nil => exact ⟨rfl, rfl⟩
  | cons hset _ ih =>
    obtain ⟨hname, ht⟩ := hset
    simp [ih.1, ih.2, hname, ht.name]

theorem names_of_lookup (hr : r.Distinct) (hmade : Complete r.complexOfShape? namespace_ made)
    {es : List (ComplexEntry α)} {types : List ComplexType} (hes : ∀ e ∈ es, e ∈ r.complexTypes)
    (h : List.Forall₂ (fun e t => made.lookup e.shape = some t) es types)
    : types.map (·.name) = es.map (·.typeName) := by
  induction h with
  | nil => rfl
  | @cons e t es types hlookup _ ih =>
    obtain ⟨he, hes⟩ := List.forall_mem_cons.mp hes
    obtain ⟨e', ht⟩ := hmade e.shape t hlookup
    -- The shape is that of no other registration, whose name the type could have instead.
    obtain rfl : e = e' := by simpa [complexOfShape?_of_mem hr he] using ht.entry
    rw [List.map_cons, List.map_cons, ih hes, ht.name]

theorem names_complexTypesOf (hr : r.Distinct)
    (hmade : Complete r.complexOfShape? namespace_ made)
    : (r.complexTypesOf namespace_ r.complexTypes made).map (·.name)
        = r.complexTypes.map (·.typeName) := by
  obtain ⟨made', _, hmade', htypes⟩ := complexTypesOf_complete hmade fun e he => he
  exact names_of_lookup hr hmade' (fun e he => he) htypes

/-! ### Models -/

theorem generate_isOk_iff (hr : r.Distinct) (config : Config)
    : (∃ m, r.generate config = .ok m)
        ↔
      (∀ e ∈ r.sets, r.IsKeyed e)
        ∧
      (r.sets.map (·.typeName)).Nodup
        ∧
      (r.complexTypes.map (·.typeName)).Nodup := by
  rw [← entitySets_isOk_iff (complete_nil config.namespace_)]
  unfold generate
  constructor
  . rintro ⟨m, h⟩
    obtain ⟨⟨sets, made⟩, hsets, h⟩ := bind_eq_ok.mp h
    obtain ⟨_, hmade, _⟩ := entitySets_complete (complete_nil _) hsets
    obtain ⟨_, htypes, hcomplex⟩ := Model.create_isOk_iff.mp ⟨m, h⟩
    rw [(names_entitySets (complete_nil _) hsets).2] at htypes
    rw [names_complexTypesOf hr hmade] at hcomplex
    exact ⟨⟨_, hsets⟩, htypes, hcomplex⟩
  . rintro ⟨⟨⟨sets, made⟩, hsets⟩, htypes, hcomplex⟩
    obtain ⟨_, hmade, _⟩ := entitySets_complete (complete_nil _) hsets
    obtain ⟨hsetNames, htypeNames⟩ := names_entitySets (complete_nil _) hsets
    rw [hsets, ok_bind]
    dsimp
    rw [Model.create_isOk_iff, hsetNames, htypeNames, names_complexTypesOf hr hmade]
    exact ⟨hr.setNames, htypes, hcomplex⟩

theorem generate_failsWith (r : Registry α) (config : Config)
    : FailsWith IsMetadata (r.generate config) := by
  unfold generate
  apply (entitySets_failsWith _ _ _ _).bind
  rintro ⟨sets, made⟩
  apply Model.create_failsWith

/--
Registrations have no model just if a set has no keys or one that names no field of simple or
complex values, or if two sets or two complex types have a type of the same name. It does not
matter which shapes contain each other, and which ones nobody has registered.
-/
theorem generate_fails_iff (hr : r.Built) (config : Config)
    : ((∃ failure, r.generate config = .error failure)
        ↔
      (∃ e ∈ r.sets, e.keys = []
        ∨
      ∃ key ∈ e.keys, ∀ f ∈ e.accessor.fields, f.name = key → ¬ r.IsStructural f)
        ∨
      ¬ (r.sets.map (·.typeName)).Nodup
        ∨
      ¬ (r.complexTypes.map (·.typeName)).Nodup)
        ∧
      ∀ failure, r.generate config = .error failure → ∃ cause, failure = .invalidMetadata cause
      := by
  refine ⟨?_, generate_failsWith r config⟩
  have hfails : (∃ failure, r.generate config = .error failure)
      ↔ ¬ ∃ m, r.generate config = .ok m := by
    cases r.generate config <;> simp
  simp only [hfails, generate_isOk_iff hr.distinct config, ← not_isKeyed_iff, not_and_or,
    not_forall, exists_prop]

end

end Registry

namespace Teams

/-- The projects with another key, next to teams and members, which contain each other. -/
def keyedBy (key : String) : Registry (Dynamic Empty) :=
  ⟨[{ projects with keys := [key] }], [team, member]⟩

theorem built_keyedBy (key : String) : (keyedBy key).Built :=
  ((Registry.Built.empty.addSet (e := { projects with keys := [key] }) rfl).addComplexType
    team).addComplexType member

/-- The owner, who is a member, can be the key, and the parts, which are projects, cannot. -/
theorem generate_keyedBy
    : (∃ failure, (keyedBy "Parts").generate {} = .error failure)
        ∧
      ¬ ∃ failure, (keyedBy "Owner").generate {} = .error failure := by
  obtain ⟨hparts, _⟩ := Registry.generate_fails_iff (built_keyedBy "Parts") {}
  obtain ⟨howner, _⟩ := Registry.generate_fails_iff (built_keyedBy "Owner") {}
  rw [hparts, howner]
  constructor
  . refine .inl ⟨_, List.mem_cons_self, .inr ⟨"Parts", List.mem_cons_self, ?_⟩⟩
    intro f hf hname
    obtain _ | ⟨_, _ | ⟨_, _ | ⟨_, hf⟩⟩⟩ := hf
    . exact absurd hname (by decide)
    . exact absurd hname (by decide)
    . apply Registry.not_isStructural_of_setOfShape? rfl
      rfl
    . cases hf
  . rintro (⟨e, he, h⟩ | htypes | hcomplex)
    . obtain rfl := List.mem_singleton.mp he
      obtain hkeys | ⟨key, hkey, hnone⟩ := h
      . cases hkeys
      . obtain rfl := List.mem_singleton.mp hkey
        refine hnone ⟨"Owner", .record memberShape, false, true⟩ ?_ rfl
          (.inr ⟨memberShape, member, rfl, rfl, rfl⟩)
        apply List.mem_cons_of_mem
        apply List.mem_cons_self
    . exact htypes (by decide)
    . exact hcomplex (by decide)

end Teams

end Edm
