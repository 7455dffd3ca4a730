import Edm.Proofs.Alike
import Edm.Proofs.Making
import Edm.Proofs.Lawful.Derived
import Edm.Proofs.Projection
import Edm.Snapshot.Ingest

/-!
This module contains the laws of the way from complex values and back. If fields keep what is
written to them, a record that is filled with what is shown of another one reads the same.
-/

namespace Edm

variable {α β : Type} {types : Shape → Type}

/-- All records of a registry are typed records with lawful fields, and no hooks change them. -/
structure Registry.LawfulTyped (kinds : (shape : Shape) → Kind α (types shape)) (r : Registry α) :
    Prop where
  sets : ∀ e ∈ r.sets, e.accessor.LawfulTyped kinds e.shape ∧ e.hooks? = none
  complexTypes : ∀ e ∈ r.complexTypes, e.accessor.LawfulTyped kinds e.shape ∧ e.hooks? = none

namespace Snapshot

theorem lift_ok (b : β) : (liftM (Except.ok b : Except Failure β) : Ingest α β) = pure b := by
  rfl

section

variable {s : Snapshot α} {a : Accessor α}

theorem fill_cons {values : List NamedValue} {p : Property} {content : Content}
    (h : NamedValue.find? values p.name = some ⟨p.name, p.type, content⟩) (declared : List Property)
    (data : α)
    : s.fill a values (p :: declared) data
        = s.setProperty a p content data >>= fun data' => s.fill a values declared data' := by
  rw [fill]
  split
  . next hnone =>
    rw [h] at hnone
    cases hnone
  . next v hv =>
    rw [h] at hv
    cases hv
    rfl

variable {kinds : (shape : Shape) → Kind α (types shape)} {shape : Shape}

/-- Complex values are shown up to a depth, and what is shown of them gives them back. -/
def Rebuilds (s : Snapshot α) (kinds : (shape : Shape) → Kind α (types shape)) (depth : Nat) :
    Prop :=
  ∀ shape e data values?,
    s.registry.complexOfShape? shape = some e →
    IsOf kinds shape data →
    s.complexValues depth ⟨shape, data⟩ = .ok values? →
      ∃ values data',
        values? = some values
          ∧
        s.toComplexRecord values shape = pure ⟨shape, data'⟩
          ∧
        IsOf kinds shape data'
          ∧
        s.AlikeComplex shape data data'

theorem simpleValue_ofValue (name : String) (v : Value)
    : (FieldValue.ofValue v : FieldValue α).simpleValue name = .ok v := by
  cases v <;> rfl

theorem fieldType?_of_mem (ha : a.Lawful kinds shape) {f : Field} (hf : f ∈ a.fields)
    (hsingle : f.collection = false) : a.fieldType? f.name = some f.type := by
  unfold Accessor.fieldType?
  rw [Accessor.field?_of_mem ha.names hf, Option.bind_some, if_neg (by simp [hsingle])]

theorem itemType?_of_mem (ha : a.Lawful kinds shape) {f : Field} (hf : f ∈ a.fields)
    (hmany : f.collection = true) : a.itemType? f.name = some f.type := by
  unfold Accessor.itemType?
  rw [Accessor.field?_of_mem ha.names hf, Option.bind_some, if_pos hmany]

/-- The value of a property is written to another record, of which nothing else is changed. -/
structure Restores (s : Snapshot α) (kinds : (shape : Shape) → Kind α (types shape)) (shape : Shape)
    (a : Accessor α) (p : Property) (data data₀ data₁ : α) : Prop where
  isOf : IsOf kinds shape data₁
  alike : a.Stores p.name → s.AlikeAt a p data data₁
  others : a.SameBut [p.name] data₀ data₁

/-- A property is shown, and what is shown of it restores its value in any record. -/
def Recovers (s : Snapshot α) (kinds : (shape : Shape) → Kind α (types shape)) (shape : Shape)
    (a : Accessor α) (p : Property) (data : α) (shown : Option NamedValue) : Prop :=
  ∃ content,
    shown = some ⟨p.name, p.type, content⟩
      ∧
    ∀ data₀, IsOf kinds shape data₀ →
      ∃ data₁,
        s.setProperty a p content data₀ = pure data₁
          ∧
        s.Restores kinds shape a p data data₀ data₁

section

variable {depth : Nat} {data : α} {p : Property}

theorem namedValue_simple {t : SimpleType} {v : FieldValue α} {w : Value}
    (hnull : s.showsNull = true) (hp : p.type = .single (.simple t))
    (hv : a.get data p.name = .ok v) (hw : v.simpleValue p.name = .ok w)
    : s.namedValue depth a data p = .ok (some ⟨p.name, p.type, .simple w⟩) := by
  rw [namedValue, hp]
  dsimp
  rw [hv, ok_bind, hw, ok_bind, hnull]
  simp [pure, Except.pure]

theorem namedValue_null {t : ComplexType} (hnull : s.showsNull = true)
    (hp : p.type = .single (.complex t)) (hv : a.get data p.name = .ok .null)
    : s.namedValue depth a data p = .ok (some ⟨p.name, p.type, .complex none⟩) := by
  rw [namedValue, hp]
  dsimp
  rw [hv, ok_bind]
  dsimp
  rw [if_pos hnull]
  rfl

theorem namedValue_record {t : ComplexType} {r : Record α} (hp : p.type = .single (.complex t))
    (hv : a.get data p.name = .ok (.record r))
    : s.namedValue depth a data p = do
        let values ← s.complexValues depth r
        return values.map fun values => ⟨p.name, p.type, .complex (some values)⟩ := by
  rw [namedValue, hp]
  dsimp
  rw [hv, ok_bind]
  dsimp
  congr 1
  funext values
  cases values <;> rfl

theorem namedValue_collection {kind : CollectionKind} {item : ItemType} {vs : List (FieldValue α)}
    (hp : p.type = .collection kind item) (hvs : a.getAll data p.name = .ok (some vs))
    : s.namedValue depth a data p = do
        let items ← s.collectionItems depth p.name item vs
        return items.map fun items => ⟨p.name, p.type, .collection item items⟩ := by
  rw [namedValue, hp]
  dsimp
  rw [hvs, ok_bind]
  dsimp
  congr 1
  funext items
  cases items <;> rfl

variable {f : Field} {shown : Option NamedValue}

theorem type_of_simple {t : SimpleType} (hfp : s.registry.Declares f p) (htype : f.type = .simple t)
    (hsingle : f.collection = false) : p.type = .single (.simple t) := by
  obtain ⟨item, hitem, hp⟩ := hfp.type
  rw [htype] at hitem
  cases hitem
  rw [hp, hsingle]
  rfl

theorem recovers_computed (ha : a.Lawful kinds shape) (hf : f ∈ a.fields)
    (hfp : s.registry.Declares f p) (hnull : s.showsNull = true) (hstores : ¬ a.Stores f.name)
    (h : s.namedValue depth a data p = .ok shown) : s.Recovers kinds shape a p data shown := by
  obtain ⟨⟨t, htype⟩, hsingle, hset⟩ := ha.computed_of_not_stores hf hstores
  have hp := type_of_simple hfp htype hsingle
  have hread : ∃ v w, a.get data p.name = .ok v ∧ v.simpleValue p.name = .ok w := by
    rw [namedValue, hp] at h
    obtain ⟨v, hv, h⟩ := bind_eq_ok.mp h
    obtain ⟨w, hw, _⟩ := bind_eq_ok.mp h
    exact ⟨v, w, hv, hw⟩
  obtain ⟨v, w, hv, hw⟩ := hread
  rw [namedValue_simple hnull hp hv hw] at h
  cases h
  refine ⟨.simple w, rfl, ?_⟩
  intro data₀ hdata₀
  refine ⟨data₀, ?_, hdata₀, ?_, .refl a _ data₀⟩
  . -- The key is written, but not to the record.
    rw [setProperty.eq_1 s a p data₀ w t hp, hfp.name, hset]
    rfl
  . intro hstored
    rw [hfp.name] at hstored
    contradiction

theorem recovers_of_set (ha : a.Lawful kinds shape) (hf : f ∈ a.fields) (hname : p.name = f.name)
    (hsingle : f.collection = false) (hstores : a.Stores f.name) {item : ItemType}
    (hp : p.type = .single item) {v v' : FieldValue α} (hv : a.get data p.name = .ok v)
    (halike : s.AlikeValue v v')
    (hv' : (∃ data₀, IsOf kinds shape data₀ ∧ a.get data₀ p.name = .ok v')
      ∨ Nested kinds f.type v')
    {content : Content} (hset : ∀ data₀, s.setProperty a p content data₀ = a.set data₀ p.name v')
    : s.Recovers kinds shape a p data (some ⟨p.name, p.type, content⟩) := by
  refine ⟨content, rfl, ?_⟩
  intro data₀ hdata₀
  rw [hname] at hv'
  obtain ⟨data₁, hwritten, hdata₁, hread, hothers⟩ :=
    ha.set f hf hsingle hstores data₀ v' hdata₀ hv'
  rw [← hname] at hwritten hread hothers
  refine ⟨data₁, ?_, hdata₁, ?_, hothers⟩
  . rw [hset, hwritten]
    rfl
  . intro _
    exact .single hp hv hread halike

theorem recovers_simple (ha : a.Lawful kinds shape) (hf : f ∈ a.fields)
    (hfp : s.registry.Declares f p) (hnull : s.showsNull = true) (hdata : IsOf kinds shape data)
    (hstores : a.Stores f.name) {t : SimpleType} (htype : f.type = .simple t)
    (hsingle : f.collection = false) (h : s.namedValue depth a data p = .ok shown)
    : s.Recovers kinds shape a p data shown := by
  have hp := type_of_simple hfp htype hsingle
  obtain ⟨v, hv, hfits⟩ := ha.get f hf hsingle hstores data hdata
  rw [htype] at hfits
  rw [← hfp.name] at hv
  cases hfits with
  | item hitem =>
    obtain ⟨w, rfl⟩ := hitem.exists_value
    rw [namedValue_simple hnull hp hv (simpleValue_ofValue p.name w)] at h
    cases h
    apply recovers_of_set ha hf hfp.name hsingle hstores hp hv (.refl _) (.inl ⟨data, hdata, hv⟩)
    intro data₀
    rw [setProperty.eq_1 s a p data₀ w t hp]

theorem recovers_complex (hdepth : s.Rebuilds kinds depth) (ha : a.Lawful kinds shape)
    (hf : f ∈ a.fields) (hfp : s.registry.Declares f p) (hnull : s.showsNull = true)
    (hdata : IsOf kinds shape data) (hstores : a.Stores f.name) {nested : Shape}
    (htype : f.type = .record nested) (hsingle : f.collection = false)
    (h : s.namedValue depth a data p = .ok shown) : s.Recovers kinds shape a p data shown := by
  obtain ⟨item, hitem, hp⟩ := hfp.type
  rw [htype] at hitem
  cases hitem with
  | @complex _ e t he _ =>
    rw [hsingle] at hp
    obtain ⟨v, hv, hfits⟩ := ha.get f hf hsingle hstores data hdata
    rw [htype] at hfits
    rw [← hfp.name] at hv
    cases hfits with
    | null =>
      rw [namedValue_null hnull hp hv] at h
      cases h
      apply recovers_of_set ha hf hfp.name hsingle hstores hp hv (.refl _) (.inl ⟨data, hdata, hv⟩)
      intro data₀
      rw [setProperty.eq_2 s a p data₀ t hp]
    | item hitem =>
      obtain ⟨other, hother, rfl⟩ := hitem.exists_record
      rw [namedValue_record hp hv] at h
      obtain ⟨values?, hvalues, h⟩ := bind_eq_ok.mp h
      obtain ⟨values, other', rfl, hrecord, hother', halike⟩ :=
        hdepth nested e other values? he hother hvalues
      cases h
      have hwritten : Nested kinds f.type (.record ⟨nested, other'⟩) := by
        rw [htype]
        exact .record hother'
      have hshape : a.fieldType? p.name = some (.record nested) := by
        rw [hfp.name, fieldType?_of_mem ha hf hsingle, htype]
      apply recovers_of_set ha hf hfp.name hsingle hstores hp hv (.record halike) (.inr hwritten)
      intro data₀
      rw [setProperty.eq_3 s a p data₀ values t hp, hshape]
      change s.toComplexRecord values nested >>= _ = _
      rw [hrecord, pure_bind]

theorem exists_fieldValues_simple {name : String} {t : SimpleType} {vs : List (FieldValue α)}
    {items? : Option (List Item)} (hvs : ∀ v ∈ vs, FitsItem kinds (.simple t) v)
    (h : s.collectionItems depth name (.simple t) vs = .ok items?)
    : ∃ items, items? = some items ∧ s.fieldValues a name items = pure vs := by
  induction vs generalizing items? with
  | nil =>
    rw [collectionItems] at h
    cases h
    exact ⟨[], rfl, by rw [fieldValues]⟩
  | cons v vs ih =>
    obtain ⟨w, rfl⟩ := (hvs v (by simp)).exists_value
    rw [collectionItems, collectionItem, simpleValue_ofValue] at h
    obtain ⟨item?, hitem, h⟩ := bind_eq_ok.mp h
    cases hitem
    obtain ⟨rest?, hrest, h⟩ := bind_eq_ok.mp h
    obtain ⟨items, rfl, hitems⟩ := ih (fun v hv => hvs v (by simp [hv])) hrest
    cases h
    refine ⟨.simple w :: items, rfl, ?_⟩
    rw [fieldValues, hitems, pure_bind]

theorem exists_fieldValues_complex (hdepth : s.Rebuilds kinds depth) {name : String}
    {nested : Shape} {e : ComplexEntry α} {t : ComplexType} {vs : List (FieldValue α)}
    {items? : Option (List Item)} (he : s.registry.complexOfShape? nested = some e)
    (hshape : a.itemType? name = some (.record nested))
    (hvs : ∀ v ∈ vs, FitsItem kinds (.record nested) v)
    (h : s.collectionItems depth name (.complex t) vs = .ok items?)
    : ∃ items vs',
        items? = some items
          ∧
        s.fieldValues a name items = pure vs'
          ∧
        (∀ v ∈ vs', Nested kinds (.record nested) v)
          ∧
        s.AlikeValues vs vs' := by
  induction vs generalizing items? with
  | nil =>
    rw [collectionItems] at h
    cases h
    exact ⟨[], [], rfl, by rw [fieldValues], by simp, .nil⟩
  | cons v vs ih =>
    obtain ⟨other, hother, rfl⟩ := (hvs v (by simp)).exists_record
    rw [collectionItems, collectionItem] at h
    obtain ⟨item?, hitem, h⟩ := bind_eq_ok.mp h
    obtain ⟨values?, hvalues, hitem⟩ := bind_eq_ok.mp hitem
    obtain ⟨values, other', rfl, hrecord, hother', halike⟩ :=
      hdepth nested e other values? he hother hvalues
    cases hitem
    obtain ⟨rest?, hrest, h⟩ := bind_eq_ok.mp h
    obtain ⟨items, vs', rfl, hitems, hvs', halikes⟩ := ih (fun v hv => hvs v (by simp [hv])) hrest
    cases h
    refine ⟨.complex values :: items, .record ⟨nested, other'⟩ :: vs', rfl, ?_, ?_, ?_⟩
    . rw [fieldValues, hshape]
      change s.toComplexRecord values nested >>= _ = _
      rw [hrecord, pure_bind, hitems, pure_bind]
    . intro v hv
      rcases List.mem_cons.mp hv with rfl | hv
      . exact .record hother'
      . exact hvs' v hv
    . exact .cons (.record halike) halikes

theorem recovers_collection (hdepth : s.Rebuilds kinds depth) (ha : a.Lawful kinds shape)
    (hf : f ∈ a.fields) (hfp : s.registry.Declares f p) (hdata : IsOf kinds shape data)
    (hmany : f.collection = true) (h : s.namedValue depth a data p = .ok shown)
    : s.Recovers kinds shape a p data shown := by
  obtain ⟨item, hitem, hp⟩ := hfp.type
  rw [hmany, if_pos rfl] at hp
  obtain ⟨vs, hvs, hfits⟩ := ha.getAll f hf hmany data hdata
  rw [← hfp.name] at hvs
  rw [namedValue_collection hp hvs] at h
  obtain ⟨items?, hitems, h⟩ := bind_eq_ok.mp h
  -- The items give a list of values that can be written to the field.
  have hwritten : ∃ items vs',
      items? = some items
        ∧
      s.fieldValues a p.name items = pure vs'
        ∧
      ((∃ data₀, IsOf kinds shape data₀ ∧ a.getAll data₀ f.name = .ok (some vs'))
        ∨ AllNested kinds f.type vs')
        ∧
      s.AlikeValues vs vs' := by
    generalize htype : f.type = type at hitem hfits ⊢
    cases hitem with
    | simple t =>
      obtain ⟨items, rfl, hvalues⟩ := exists_fieldValues_simple hfits hitems
      exact ⟨items, vs, rfl, hvalues, .inl ⟨data, hdata, hfp.name ▸ hvs⟩, .refl s vs⟩
    | @complex nested _ _ he _ =>
      have hshape : a.itemType? p.name = some (.record nested) := by
        rw [hfp.name, itemType?_of_mem ha hf hmany, htype]
      obtain ⟨items, vs', rfl, hvalues, hnested, halikes⟩ :=
        exists_fieldValues_complex hdepth he hshape hfits hitems
      exact ⟨items, vs', rfl, hvalues, .inr (.records hnested), halikes⟩
  obtain ⟨items, vs', rfl, hvalues, hvs', halikes⟩ := hwritten
  cases h
  refine ⟨.collection item items, rfl, ?_⟩
  intro data₀ hdata₀
  obtain ⟨data₁, hset, hdata₁, hread, hothers⟩ := ha.setAll f hf hmany data₀ vs' hdata₀ hvs'
  rw [← hfp.name] at hset hread hothers
  refine ⟨data₁, ?_, hdata₁, ?_, hothers⟩
  . rw [setProperty.eq_4 s a p data₀ item items .list item hp, hvalues, pure_bind, hset]
    rfl
  . intro _
    exact .collection hp hvs hread halikes

theorem recovers_of_namedValue (hdepth : s.Rebuilds kinds depth) (ha : a.Lawful kinds shape)
    (hf : f ∈ a.fields) (hfp : s.registry.Declares f p) (hnull : s.showsNull = true)
    (hdata : IsOf kinds shape data) (h : s.namedValue depth a data p = .ok shown)
    : s.Recovers kinds shape a p data shown := by
  by_cases hstores : a.Stores f.name
  . cases hcollection : f.collection with
    | true => exact recovers_collection hdepth ha hf hfp hdata hcollection h
    | false =>
      obtain ⟨item, hitem, _⟩ := hfp.type
      generalize htype : f.type = type at hitem
      cases hitem with
      | simple t => exact recovers_simple ha hf hfp hnull hdata hstores htype hcollection h
      | complex he _ =>
        exact recovers_complex hdepth ha hf hfp hnull hdata hstores htype hcollection h
  . exact recovers_computed ha hf hfp hnull hstores h

theorem exists_fill {values : List NamedValue} {ps : List Property} {data₀ : α}
    (hdepth : s.Rebuilds kinds depth) (ha : a.Lawful kinds shape) (hnull : s.showsNull = true)
    (hdata : IsOf kinds shape data) (hdata₀ : IsOf kinds shape data₀)
    (hnodup : (ps.map (·.name)).Nodup) (hps : ∀ p ∈ ps, ∃ f ∈ a.fields, s.registry.Declares f p)
    (hvalues : ∀ p ∈ ps, ∃ shown,
      s.namedValue depth a data p = .ok shown ∧ NamedValue.find? values p.name = shown)
    : ∃ data₁,
        s.fill a values ps data₀ = pure data₁
          ∧
        IsOf kinds shape data₁
          ∧
        (∀ p ∈ ps, a.Stores p.name → s.AlikeAt a p data data₁)
          ∧
        a.SameBut (ps.map (·.name)) data₀ data₁ := by
  induction ps generalizing data₀ with
  | nil =>
    refine ⟨data₀, ?_, hdata₀, by simp, .refl a [] data₀⟩
    rw [fill]
  | cons p ps ih =>
    rw [List.map_cons, List.nodup_cons] at hnodup
    obtain ⟨f, hf, hfp⟩ := hps p (by simp)
    obtain ⟨shown, hshown, hfound⟩ := hvalues p (by simp)
    obtain ⟨content, rfl, hset⟩ := recovers_of_namedValue hdepth ha hf hfp hnull hdata hshown
    obtain ⟨data₁, hset, hrestores⟩ := hset data₀ hdata₀
    obtain ⟨data₂, hfill, hdata₂, halike, hothers⟩ := ih hrestores.isOf hnodup.2
      (fun p hp => hps p (by simp [hp])) (fun p hp => hvalues p (by simp [hp]))
    refine ⟨data₂, ?_, hdata₂, ?_, ?_⟩
    . rw [fill_cons hfound, hset, pure_bind, hfill]
    . intro p' hp' hstored
      rcases List.mem_cons.mp hp' with rfl | hp'
      . -- The properties that are set later leave this one as it is.
        exact (hrestores.alike hstored).of_sameAt (hothers p'.name hnodup.1 hstored)
      . exact halike p' hp' hstored
    . exact hrestores.others.trans hothers

end

theorem rebuilds (hdistinct : s.registry.Distinct)
    (hgenerate : s.registry.generate s.config = .ok s.model)
    (hlawful : s.registry.LawfulTyped kinds) (hnull : s.showsNull = true) (depth : Nat)
    : s.Rebuilds kinds depth := by
  induction depth with
  | zero =>
    intro shape e data values? he hdata h
    rw [complexValues] at h
    cases h
  | succ depth ih =>
    intro shape e data values? he hdata h
    -- The type by which the value was shown is also the one by which it is read.
    obtain ⟨hmem, rfl⟩ := Registry.mem_of_complexOfShape? he
    obtain ⟨t, ht, hof⟩ := Registry.exists_complexType hdistinct hgenerate hmem
    obtain ⟨htyped, hhooks⟩ := hlawful.complexTypes e hmem
    have ha := htyped.lawful
    rw [complexValues, he] at h
    dsimp at h
    rw [ht] at h
    obtain ⟨values, hvalues, h⟩ := bind_eq_ok.mp h
    cases h
    have hnodup : (t.properties.map (·.name)).Nodup := ha.names.sublist hof.properties.names
    obtain ⟨fresh, hcreate, hfresh⟩ := ha.create
    obtain ⟨data', hfill, hdata', halike, _⟩ := exists_fill ih ha hnull hdata hfresh hnodup
      (fun p hp => hof.properties.exists_field hp)
      (fun p hp => find?_of_namedValue hnodup hvalues hp)
    refine ⟨_, data', rfl, ?_, hdata', .mk he ht halike⟩
    rw [toComplexRecord, he]
    dsimp
    rw [ht]
    dsimp
    rw [hcreate, lift_ok, pure_bind, hhooks]
    change s.fill _ _ _ _ >>= _ = _
    rw [hfill]
    rfl

end

end Snapshot

end Edm
