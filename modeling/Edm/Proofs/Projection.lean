import Edm.Proofs.Outcome
import Edm.Proofs.Registrations
import Edm.Snapshot.Projection

/-!
This module contains what the entity that shows a record is made of. Its links are given by a
function of their own here, which is the one that entities are made with.
-/

namespace Edm

variable {α : Type}

theorem Entity.create_eq_ok {set : EntitySet} {key : Key} {values : List NamedValue}
    {links : List (Link α)} {en : Entity α} (h : Entity.create set key values links = .ok en)
    : en = ⟨set.name, set.type, key, values, links, none⟩ := by
  unfold Entity.create at h
  dsimp at h
  split at h
  . cases h
  . split at h
    . cases h
    . cases h
      rfl

namespace Snapshot

/-- The entity that shows a record at the far end of an expanded navigation. -/
def expand (s : Snapshot α) (selection : Selection) (n : Navigation) (other : Record α) :
    Except Failure (Entity α) := do
  s.toEntity (← s.setOfShape other.shape) other (selection.navigate n.name)

def link (s : Snapshot α) (a : Accessor α) (data : α) (selection : Selection) (n : Navigation) :
    Except Failure (Link α) :=
  if selection.isExpanded n.name then do
    let records ← a.related data n
    if n.multiplicity.isMany then
      return ⟨n.name, .many (← records.mapM (s.expand selection n))⟩
    else
      match records.head? with
      | none => return ⟨n.name, .single none⟩
      | some other => return ⟨n.name, .single (some (← s.expand selection n other))⟩
  else
    return ⟨n.name, .deferred n.multiplicity.isMany⟩

theorem link_congr {s : Snapshot α} {a : Accessor α} {data : α} {left right : Selection}
    {n : Navigation} (hsame : left.isExpanded n.name = right.isExpanded n.name)
    (hexpand : left.isExpanded n.name = true →
      ∀ other, s.expand left n other = s.expand right n other)
    : s.link a data left n = s.link a data right n := by
  unfold link
  rw [← hsame]
  split
  . next hexpanded => rw [funext (hexpand hexpanded)]
  . rfl

theorem toEntity_eq (s : Snapshot α) (set : EntitySet) (r : Record α) (selection : Selection)
    : s.toEntity set r selection = do
        let e ← s.entry set.name
        let key ← key set e.accessor r.data
        let values ← (set.type.properties.filter fun p => selection.isSelected p.name).mapM fun p =>
          s.project e.accessor r.data p
        let links ← (set.type.navigations.filter fun n => selection.isSelected n.name).mapM
          (s.link e.accessor r.data selection)
        return (← Entity.create set key (values.filterMap id) links).withRecord r := by
  rw [toEntity]
  rfl

theorem exists_of_toEntity {s : Snapshot α} {set : EntitySet} {r : Record α} {selection : Selection}
    {en : Entity α} (h : s.toEntity set r selection = .ok en)
    : ∃ e values,
        s.entry set.name = .ok e
          ∧
        key set e.accessor r.data = .ok en.key
          ∧
        (set.type.properties.filter fun p => selection.isSelected p.name).mapM
          (s.project e.accessor r.data) = .ok values
          ∧
        en.values = values.filterMap id
          ∧
        (set.type.navigations.filter fun n => selection.isSelected n.name).mapM
          (s.link e.accessor r.data selection) = .ok en.links
          ∧
        en.type = set.type
          ∧
        en.record? = some r := by
  rw [toEntity_eq] at h
  obtain ⟨e, he, h⟩ := bind_eq_ok.mp h
  obtain ⟨key, hkey, h⟩ := bind_eq_ok.mp h
  obtain ⟨values, hvalues, h⟩ := bind_eq_ok.mp h
  obtain ⟨links, hlinks, h⟩ := bind_eq_ok.mp h
  obtain ⟨created, hcreated, h⟩ := bind_eq_ok.mp h
  rw [Entity.create_eq_ok hcreated, pure_eq_ok] at h
  subst h
  exact ⟨e, values, he, hkey, hvalues, rfl, hlinks, rfl, rfl⟩

/-- What a property of a record is shown as, if it is shown. -/
inductive Projects (s : Snapshot α) (depth : Nat) (a : Accessor α) (data : α) (p : Property)
    : Option NamedValue → Prop where
  | simple {t : SimpleType} {field : FieldValue α} {v : Value}
      (htype : p.type = .single (.simple t)) (hfield : a.get data p.name = .ok field)
      (hv : field.simpleValue p.name = .ok v) (hshown : (v.isNull && !s.showsNull) = false)
      : Projects s depth a data p (some ⟨p.name, p.type, .simple v⟩)
  | nullSimple {t : SimpleType} {field : FieldValue α} {v : Value}
      (htype : p.type = .single (.simple t)) (hfield : a.get data p.name = .ok field)
      (hv : field.simpleValue p.name = .ok v) (hnull : (v.isNull && !s.showsNull) = true)
      : Projects s depth a data p none
  | shownNull {t : ComplexType} (htype : p.type = .single (.complex t))
      (hfield : a.get data p.name = .ok .null) (hshown : s.showsNull = true)
      : Projects s depth a data p (some ⟨p.name, p.type, .complex none⟩)
  | hiddenNull {t : ComplexType} (htype : p.type = .single (.complex t))
      (hfield : a.get data p.name = .ok .null) (hhidden : s.showsNull = false)
      : Projects s depth a data p none
  | complex {t : ComplexType} {r : Record α} {values : List NamedValue}
      (htype : p.type = .single (.complex t)) (hfield : a.get data p.name = .ok (.record r))
      (hvalues : s.complexValues depth r = .ok (some values))
      : Projects s depth a data p (some ⟨p.name, p.type, .complex (some values)⟩)
  | unmapped {t : ComplexType} {r : Record α} (htype : p.type = .single (.complex t))
      (hfield : a.get data p.name = .ok (.record r))
      (hvalues : s.complexValues depth r = .ok none) : Projects s depth a data p none
  | collection {kind : CollectionKind} {item : ItemType} {fields? : Option (List (FieldValue α))}
      {items : List Item} (htype : p.type = .collection kind item)
      (hfields : a.getAll data p.name = .ok fields?)
      (hitems : s.collectionItems depth p.name item (fields?.getD []) = .ok (some items))
      (hshown : (fields?.isNone && !s.showsNull) = false)
      : Projects s depth a data p (some ⟨p.name, p.type, .collection item items⟩)
  | unmappedItem {kind : CollectionKind} {item : ItemType} {fields? : Option (List (FieldValue α))}
      (htype : p.type = .collection kind item) (hfields : a.getAll data p.name = .ok fields?)
      (hitems : s.collectionItems depth p.name item (fields?.getD []) = .ok none)
      : Projects s depth a data p none
  | nullCollection {kind : CollectionKind} {item : ItemType}
      (htype : p.type = .collection kind item) (hfields : a.getAll data p.name = .ok none)
      (hhidden : s.showsNull = false) : Projects s depth a data p none
  | entity {t : EntityType} (htype : p.type = .entity t) : Projects s depth a data p none

theorem projects_of_namedValue {s : Snapshot α} {depth : Nat} {a : Accessor α} {data : α}
    {p : Property} {v? : Option NamedValue} (h : s.namedValue depth a data p = .ok v?)
    : s.Projects depth a data p v? := by
  rw [namedValue] at h
  dsimp at h
  split at h
  . next htype =>
    obtain ⟨field, hfield, h⟩ := bind_eq_ok.mp h
    obtain ⟨v, hv, h⟩ := bind_eq_ok.mp h
    split at h
    . next hnull =>
      cases h
      exact .nullSimple htype hfield hv hnull
    . next hshown =>
      cases h
      exact .simple htype hfield hv (eq_false_of_ne_true hshown)
  . next htype =>
    obtain ⟨field, hfield, h⟩ := bind_eq_ok.mp h
    split at h
    . split at h
      . next hshown =>
        cases h
        exact .shownNull htype hfield hshown
      . next hhidden =>
        cases h
        exact .hiddenNull htype hfield (eq_false_of_ne_true hhidden)
    . obtain ⟨values?, hvalues, h⟩ := bind_eq_ok.mp h
      cases values? with
      | none =>
        cases h
        exact .unmapped htype hfield hvalues
      | some values =>
        cases h
        exact .complex htype hfield hvalues
    . cases h
  . next htype =>
    obtain ⟨fields?, hfields, h⟩ := bind_eq_ok.mp h
    split at h
    . next hnull =>
      cases h
      rw [Bool.and_eq_true, Option.isNone_iff_eq_none, Bool.not_eq_true'] at hnull
      obtain ⟨rfl, hhidden⟩ := hnull
      exact .nullCollection htype hfields hhidden
    . next hshown =>
      obtain ⟨items?, hitems, h⟩ := bind_eq_ok.mp h
      cases items? with
      | none =>
        cases h
        exact .unmappedItem htype hfields hitems
      | some items =>
        cases h
        exact .collection htype hfields hitems (eq_false_of_ne_true hshown)
  . next htype =>
    cases h
    exact .entity htype

theorem shown_of_namedValue {s : Snapshot α} {depth : Nat} {a : Accessor α} {data : α}
    {p : Property} {v : NamedValue} (h : s.namedValue depth a data p = .ok (some v))
    : ∃ content, v = ⟨p.name, p.type, content⟩ := by
  cases projects_of_namedValue h with
  | simple | shownNull | complex | collection => exact ⟨_, rfl⟩

theorem find?_of_namedValue {s : Snapshot α} {depth : Nat} {a : Accessor α} {data : α}
    {ps : List Property} {values : List (Option NamedValue)} (hnodup : (ps.map (·.name)).Nodup)
    (h : ps.mapM (fun p => s.namedValue depth a data p) = .ok values) {p : Property} (hp : p ∈ ps)
    : ∃ shown,
        s.namedValue depth a data p = .ok shown
          ∧
        NamedValue.find? (values.filterMap id) p.name = shown := by
  obtain ⟨shown, _, hshown⟩ := exists_of_forall₂ (mapM_eq_ok.mp h) hp
  refine ⟨shown, hshown, ?_⟩
  have hname : ∀ p v, s.namedValue depth a data p = .ok (some v) → v.name = p.name := by
    intro p v hv
    obtain ⟨_, rfl⟩ := shown_of_namedValue hv
    rfl
  exact find?_of_mapM hname hnodup h hp hshown

inductive Leads (s : Snapshot α) (a : Accessor α) (data : α) (selection : Selection)
    (n : Navigation) : Link α → Prop where
  | deferred (hdeferred : selection.isExpanded n.name = false)
      : Leads s a data selection n ⟨n.name, .deferred n.multiplicity.isMany⟩
  | many {records : List (Record α)} {entities : List (Entity α)}
      (hexpanded : selection.isExpanded n.name = true) (hmany : n.multiplicity.isMany = true)
      (hrecords : a.related data n = .ok records)
      (hentities : records.mapM (s.expand selection n) = .ok entities)
      : Leads s a data selection n ⟨n.name, .many entities⟩
  | none (hexpanded : selection.isExpanded n.name = true) (hone : n.multiplicity.isMany = false)
      (hrecords : a.related data n = .ok [])
      : Leads s a data selection n ⟨n.name, .single none⟩
  | single {other : Record α} {others : List (Record α)} {en : Entity α}
      (hexpanded : selection.isExpanded n.name = true) (hone : n.multiplicity.isMany = false)
      (hrecords : a.related data n = .ok (other :: others))
      (hen : s.expand selection n other = .ok en)
      : Leads s a data selection n ⟨n.name, .single (some en)⟩

theorem leads_of_link {s : Snapshot α} {a : Accessor α} {data : α} {selection : Selection}
    {n : Navigation} {l : Link α} (h : s.link a data selection n = .ok l)
    : s.Leads a data selection n l := by
  unfold link at h
  split at h
  . next hexpanded =>
    obtain ⟨records, hrecords, h⟩ := bind_eq_ok.mp h
    split at h
    . next hmany =>
      obtain ⟨entities, hentities, h⟩ := bind_eq_ok.mp h
      cases h
      exact .many hexpanded hmany hrecords hentities
    . next hone =>
      cases records with
      | nil =>
        cases h
        exact .none hexpanded (eq_false_of_ne_true hone) hrecords
      | cons other others =>
        obtain ⟨en, hen, h⟩ := bind_eq_ok.mp h
        cases h
        exact .single hexpanded (eq_false_of_ne_true hone) hrecords hen
  . next hdeferred =>
    cases h
    exact .deferred (eq_false_of_ne_true hdeferred)

theorem name_of_link {s : Snapshot α} {a : Accessor α} {data : α} {selection : Selection}
    {n : Navigation} {l : Link α} (h : s.link a data selection n = .ok l) : l.name = n.name := by
  cases leads_of_link h with
  | deferred | many | none | single => rfl

theorem link?_of_mapM {s : Snapshot α} {a : Accessor α} {data : α} {selection : Selection}
    {ns : List Navigation} {en : Entity α} (hnodup : (ns.map (·.name)).Nodup)
    (h : ns.mapM (s.link a data selection) = .ok en.links) {n : Navigation} (hn : n ∈ ns)
    : ∃ l, s.link a data selection n = .ok l ∧ en.link? n.name = some l := by
  obtain ⟨l, hmem, hl⟩ := exists_of_forall₂ (mapM_eq_ok.mp h) hn
  have hnames : en.links.map (·.name) = ns.map (·.name) :=
    map_eq_map_of_mapM (fun _ _ => name_of_link) h
  refine ⟨l, hl, ?_⟩
  rw [← name_of_link hl]
  exact find?_eq_some_of_nodup (hnames ▸ hnodup) hmem

end Snapshot

end Edm
