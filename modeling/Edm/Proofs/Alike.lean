import Edm.Proofs.Lawful
import Edm.Snapshot.Projection

/-!
This module contains when two records read the same: in the properties of the model, through complex
values and collections, and at the far ends of the navigations that are expanded.
-/

namespace Edm.Snapshot

variable {α : Type}

mutual

/-- Complex values of a shape that read the same in all properties of their type. -/
inductive AlikeComplex (s : Snapshot α) : Shape → α → α → Prop where
  | mk {shape : Shape} {e : ComplexEntry α} {t : ComplexType} {data data' : α}
      (he : s.registry.complexOfShape? shape = some e)
      (ht : s.model.complexType? e.typeName = some t)
      (h : ∀ p ∈ t.properties, e.accessor.Stores p.name → AlikeAt s e.accessor p data data')
      : AlikeComplex s shape data data'

inductive AlikeAt (s : Snapshot α) : Accessor α → Property → α → α → Prop where
  | single {a : Accessor α} {p : Property} {data data' : α} {item : ItemType} {v v' : FieldValue α}
      (hp : p.type = .single item) (hv : a.get data p.name = .ok v)
      (hv' : a.get data' p.name = .ok v') (h : AlikeValue s v v') : AlikeAt s a p data data'
  | collection {a : Accessor α} {p : Property} {data data' : α} {kind : CollectionKind}
      {item : ItemType} {vs vs' : List (FieldValue α)} (hp : p.type = .collection kind item)
      (hvs : a.getAll data p.name = .ok (some vs)) (hvs' : a.getAll data' p.name = .ok (some vs'))
      (h : AlikeValues s vs vs') : AlikeAt s a p data data'

/-- Values that are the same, or complex values that read the same. -/
inductive AlikeValue (s : Snapshot α) : FieldValue α → FieldValue α → Prop where
  | refl (v : FieldValue α) : AlikeValue s v v
  | record {shape : Shape} {data data' : α} (h : AlikeComplex s shape data data')
      : AlikeValue s (.record ⟨shape, data⟩) (.record ⟨shape, data'⟩)

inductive AlikeValues (s : Snapshot α) : List (FieldValue α) → List (FieldValue α) → Prop where
  | nil : AlikeValues s [] []
  | cons {v v' : FieldValue α} {vs vs' : List (FieldValue α)} (h : AlikeValue s v v')
      (hs : AlikeValues s vs vs') : AlikeValues s (v :: vs) (v' :: vs')

end

mutual

/--
Contents of records of a set that read the same in all properties and at the far ends of the
expanded navigations. The other navigations are those of a new record in the second one.
-/
inductive AlikeEntity (s : Snapshot α) : Selection → Shape → α → α → Prop where
  | mk {selection : Selection} {shape : Shape} {e : SetEntry α} {set : EntitySet} {data data' : α}
      (he : s.registry.setOfShape? shape = some e) (hset : s.model.entitySet e.name = .ok set)
      (hproperties : ∀ p ∈ set.type.properties,
        e.accessor.Stores p.name → AlikeAt s e.accessor p data data')
      (hnavigations : ∀ n ∈ set.type.navigations,
        AlikeLink s selection e.accessor n data data')
      : AlikeEntity s selection shape data data'

inductive AlikeLink (s : Snapshot α) : Selection → Accessor α → Navigation → α → α → Prop where
  | deferred {selection : Selection} {a : Accessor α} {n : Navigation} {data data' fresh : α}
      (hexpanded : selection.isExpanded n.name = false) (hfresh : a.create = .ok fresh)
      (h : a.SameAt n.name fresh data') : AlikeLink s selection a n data data'
  | none {selection : Selection} {a : Accessor α} {n : Navigation} {data data' : α}
      (hexpanded : selection.isExpanded n.name = true) (hn : n.multiplicity.isMany = false)
      (hv : a.get data n.name = .ok .null) (hv' : a.get data' n.name = .ok .null)
      : AlikeLink s selection a n data data'
  | single {selection : Selection} {a : Accessor α} {n : Navigation} {data data' other other' : α}
      {shape : Shape} (hexpanded : selection.isExpanded n.name = true)
      (hn : n.multiplicity.isMany = false) (hv : a.get data n.name = .ok (.record ⟨shape, other⟩))
      (hv' : a.get data' n.name = .ok (.record ⟨shape, other'⟩))
      (h : AlikeEntity s (selection.navigate n.name) shape other other')
      : AlikeLink s selection a n data data'
  | many {selection : Selection} {a : Accessor α} {n : Navigation} {data data' : α}
      {vs vs' : List (FieldValue α)} (hexpanded : selection.isExpanded n.name = true)
      (hn : n.multiplicity.isMany = true) (hvs : a.getAll data n.name = .ok (some vs))
      (hvs' : a.getAll data' n.name = .ok (some vs'))
      (h : AlikeEntities s (selection.navigate n.name) vs vs')
      : AlikeLink s selection a n data data'

inductive AlikeEntities (s : Snapshot α) :
    Selection → List (FieldValue α) → List (FieldValue α) → Prop where
  | nil {selection : Selection} : AlikeEntities s selection [] []
  | cons {selection : Selection} {shape : Shape} {other other' : α} {vs vs' : List (FieldValue α)}
      (h : AlikeEntity s selection shape other other') (hs : AlikeEntities s selection vs vs')
      : AlikeEntities s selection (.record ⟨shape, other⟩ :: vs) (.record ⟨shape, other'⟩ :: vs')

end

theorem AlikeValues.refl (s : Snapshot α) (vs : List (FieldValue α)) : s.AlikeValues vs vs := by
  induction vs with
  | nil => exact .nil
  | cons v vs ih => exact .cons (.refl v) ih

theorem AlikeAt.of_sameAt {s : Snapshot α} {a : Accessor α} {p : Property} {data data' data'' : α}
    (h : s.AlikeAt a p data data') (hsame : a.SameAt p.name data' data'')
    : s.AlikeAt a p data data'' := by
  cases h with
  | single hp hv hv' h => exact .single hp hv (hsame.1 ▸ hv') h
  | collection hp hvs hvs' h => exact .collection hp hvs (hsame.2 ▸ hvs') h

theorem AlikeLink.of_sameAt {s : Snapshot α} {selection : Selection} {a : Accessor α}
    {n : Navigation} {data data' data'' : α} (h : s.AlikeLink selection a n data data')
    (hsame : a.SameAt n.name data' data'') : s.AlikeLink selection a n data data'' := by
  cases h with
  | deferred hexpanded hfresh h =>
    exact .deferred hexpanded hfresh ⟨h.1.trans hsame.1, h.2.trans hsame.2⟩
  | none hexpanded hn hv hv' => exact .none hexpanded hn hv (hsame.1 ▸ hv')
  | single hexpanded hn hv hv' h => exact .single hexpanded hn hv (hsame.1 ▸ hv') h
  | many hexpanded hn hvs hvs' h => exact .many hexpanded hn hvs (hsame.2 ▸ hvs') h

end Edm.Snapshot
