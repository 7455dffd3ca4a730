import Mathlib
import Edm.Proofs.Lawful.Lens
import Edm.Proofs.Rebuilding.Complex

/-!
This module contains the laws of the way from records to entities and back. A record is made again
from the entity that shows it, together with the records at the far ends of expanded navigations.
-/

namespace Edm

variable {α : Type} {types : Shape → Type}

namespace Snapshot

section

variable {s : Snapshot α} {kinds : (shape : Shape) → Kind α (types shape)} {a : Accessor α}
  {shape nested : Shape} {selection : Selection} {data data₀ : α} {f : Field} {n : Navigation}
  {l : Link α}

/-- Records are rebuilt from the entities that show them with a selection. -/
def RebuildsEntities (s : Snapshot α) (kinds : (shape : Shape) → Kind α (types shape))
    (selection : Selection) : Prop :=
  ∀ shape data set en,
    s.setOfShape shape = .ok set →
    IsOf kinds shape data →
    s.toEntity set ⟨shape, data⟩ selection = .ok en →
      ∃ data',
        s.toRecord en shape = pure ⟨shape, data'⟩
          ∧
        IsOf kinds shape data'
          ∧
        s.AlikeEntity selection shape data data'

structure Relinks (s : Snapshot α) (kinds : (shape : Shape) → Kind α (types shape)) (shape : Shape)
    (a : Accessor α) (selection : Selection) (n : Navigation) (data data₀ data₁ : α) : Prop where
  isOf : IsOf kinds shape data₁
  alike : s.AlikeLink selection a n data data₁
  others : a.SameBut [n.name] data₀ data₁

theorem stores_of_record (ha : a.Lawful kinds shape) (hf : f ∈ a.fields)
    (htype : f.type = .record nested) : a.Stores f.name := by
  by_contra hstores
  obtain ⟨⟨t, ht⟩, _⟩ := ha.computed_of_not_stores hf hstores
  rw [htype] at ht
  cases ht

theorem exists_expand (hentities : s.RebuildsEntities kinds (selection.navigate n.name))
    {other : α} {en : Entity α} (hother : IsOf kinds nested other)
    (h : s.expand selection n ⟨nested, other⟩ = .ok en)
    : ∃ other',
        s.toRecord en nested = pure ⟨nested, other'⟩
          ∧
        IsOf kinds nested other'
          ∧
        s.AlikeEntity (selection.navigate n.name) nested other other' := by
  obtain ⟨set, hset, h⟩ := bind_eq_ok.mp h
  exact hentities nested other set en hset hother h

/-- The values of a field with nested records of the given contents. -/
def nestedValues (shape : Shape) (others : List α) : List (FieldValue α) :=
  others.map fun other => .record ⟨shape, other⟩

theorem exists_nestedValues {vs : List (FieldValue α)}
    (hvs : ∀ v ∈ vs, FitsItem kinds (.record nested) v)
    : ∃ others, (∀ other ∈ others, IsOf kinds nested other) ∧ vs = nestedValues nested others := by
  induction vs with
  | nil => exact ⟨[], by simp, rfl⟩
  | cons v vs ih =>
    obtain ⟨others, hothers, rfl⟩ := ih fun v hv => hvs v (by simp [hv])
    obtain ⟨other, hother, rfl⟩ := (hvs v (by simp)).exists_record
    exact ⟨other :: others, by simpa using ⟨hother, hothers⟩, rfl⟩

theorem related_many {others : List α} (hmany : n.multiplicity.isMany = true)
    (hvs : a.getAll data n.name = .ok (some (nestedValues nested others)))
    : a.related data n = .ok (others.map fun other => ⟨nested, other⟩) := by
  have hmapM : (nestedValues nested others).mapM (FieldValue.related n.name)
      = .ok (others.map fun other => some ⟨nested, other⟩) := by
    clear hvs
    induction others with
    | nil => rfl
    | cons other others ih =>
      unfold nestedValues at ih ⊢
      rw [List.map_cons, List.mapM_cons, ih]
      rfl
  unfold Accessor.related
  rw [hmany, if_pos rfl, hvs]
  change (nestedValues nested others).mapM (FieldValue.related n.name) >>= _ = _
  rw [hmapM, ok_bind, List.filterMap_map]
  simp [pure, Except.pure]

theorem related_single {v : FieldValue α} {other? : Option (Record α)}
    (hsingle : n.multiplicity.isMany = false) (hv : a.get data n.name = .ok v)
    (h : v.related n.name = .ok other?) : a.related data n = .ok other?.toList := by
  unfold Accessor.related
  rw [hsingle, hv]
  change [v].mapM (FieldValue.related n.name) >>= _ = _
  rw [List.mapM_cons, h]
  cases other? <;> rfl

theorem exists_toRecords (hentities : s.RebuildsEntities kinds (selection.navigate n.name))
    {others : List α} {entities : List (Entity α)}
    (hothers : ∀ other ∈ others, IsOf kinds nested other)
    (h : (others.map fun other => ⟨nested, other⟩).mapM (s.expand selection n) = .ok entities)
    : ∃ others',
        s.toRecords entities nested = pure (nestedValues nested others')
          ∧
        (∀ other ∈ others', IsOf kinds nested other)
          ∧
        s.AlikeEntities (selection.navigate n.name) (nestedValues nested others)
          (nestedValues nested others') := by
  induction others generalizing entities with
  | nil =>
    rw [List.map_nil, List.mapM_nil, pure_eq_ok] at h
    subst h
    refine ⟨[], ?_, by simp, .nil⟩
    rw [toRecords]
    rfl
  | cons other others ih =>
    rw [List.map_cons, List.mapM_cons] at h
    obtain ⟨en, hen, h⟩ := bind_eq_ok.mp h
    obtain ⟨entities', hentities', h⟩ := bind_eq_ok.mp h
    cases h
    obtain ⟨other', hrecord, hother', halike⟩ :=
      exists_expand hentities (hothers other (by simp)) hen
    obtain ⟨others', hrecords, hothers', halikes⟩ :=
      ih (fun other hother => hothers other (by simp [hother])) hentities'
    refine ⟨other' :: others', ?_, by simpa using ⟨hother', hothers'⟩, .cons halike halikes⟩
    rw [toRecords, hrecord, pure_bind, hrecords, pure_bind]
    rfl

theorem relinks_many (hentities : s.RebuildsEntities kinds (selection.navigate n.name))
    (ha : a.Lawful kinds shape) (hf : f ∈ a.fields) (hname : n.name = f.name)
    (htype : f.type = .record nested) (hmany : f.collection = true)
    (hn : n.multiplicity.isMany = true) (hexpanded : selection.isExpanded n.name = true)
    (hdata : IsOf kinds shape data) (h : s.link a data selection n = .ok l)
    (hdata₀ : IsOf kinds shape data₀)
    : ∃ data₁,
        s.setNavigation a n.name l.target data₀ = pure data₁
          ∧
        s.Relinks kinds shape a selection n data data₀ data₁ := by
  obtain ⟨vs, hvs, hfits⟩ := ha.getAll f hf hmany data hdata
  rw [htype] at hfits
  obtain ⟨others, hothers, rfl⟩ := exists_nestedValues hfits
  rw [← hname] at hvs
  unfold link at h
  rw [if_pos hexpanded, related_many hn hvs, ok_bind, if_pos hn] at h
  obtain ⟨entities, hentities', h⟩ := bind_eq_ok.mp h
  cases h
  obtain ⟨others', hrecords, hothers', halikes⟩ := exists_toRecords hentities hothers hentities'
  have hwritten : AllNested kinds f.type (nestedValues nested others') := by
    rw [htype]
    refine .records ?_
    intro v hv
    obtain ⟨other', hother', rfl⟩ := List.mem_map.mp hv
    exact .record (hothers' other' hother')
  obtain ⟨data₁, hset, hdata₁, hread, hbut⟩ := ha.setAll f hf hmany data₀ _ hdata₀ (.inr hwritten)
  have hshape : a.itemType? n.name = some (.record nested) := by
    rw [hname, itemType?_of_mem ha hf hmany, htype]
  rw [← hname] at hset hread hbut
  refine ⟨data₁, ?_, hdata₁, .many hexpanded hn hvs hread halikes, hbut⟩
  rw [setNavigation, hshape]
  change s.toRecords entities nested >>= _ = _
  rw [hrecords, pure_bind, hset]
  rfl

theorem exists_set_navigation (ha : a.Lawful kinds shape) (hf : f ∈ a.fields)
    (hname : n.name = f.name) (hsingle : f.collection = false) (hstores : a.Stores f.name)
    {v : FieldValue α}
    (hv : (∃ data, IsOf kinds shape data ∧ a.get data n.name = .ok v) ∨ Nested kinds f.type v)
    {target : Target α} (hset : s.setNavigation a n.name target data₀ = a.set data₀ n.name v)
    (hdata₀ : IsOf kinds shape data₀)
    : ∃ data₁,
        s.setNavigation a n.name target data₀ = pure data₁
          ∧
        IsOf kinds shape data₁
          ∧
        a.get data₁ n.name = .ok v
          ∧
        a.SameBut [n.name] data₀ data₁ := by
  rw [hname] at hv
  obtain ⟨data₁, hwritten, hdata₁, hread, hbut⟩ := ha.set f hf hsingle hstores data₀ v hdata₀ hv
  rw [← hname] at hwritten hread hbut
  refine ⟨data₁, ?_, hdata₁, hread, hbut⟩
  rw [hset, hwritten]
  rfl

theorem relinks_single (hentities : s.RebuildsEntities kinds (selection.navigate n.name))
    (ha : a.Lawful kinds shape) (hf : f ∈ a.fields) (hname : n.name = f.name)
    (htype : f.type = .record nested) (hsingle : f.collection = false)
    (hn : n.multiplicity.isMany = false) (hexpanded : selection.isExpanded n.name = true)
    (hdata : IsOf kinds shape data) (h : s.link a data selection n = .ok l)
    (hdata₀ : IsOf kinds shape data₀)
    : ∃ data₁,
        s.setNavigation a n.name l.target data₀ = pure data₁
          ∧
        s.Relinks kinds shape a selection n data data₀ data₁ := by
  have hstores := stores_of_record ha hf htype
  obtain ⟨v, hv, hfits⟩ := ha.get f hf hsingle hstores data hdata
  rw [htype] at hfits
  rw [← hname] at hv
  unfold link at h
  rw [if_pos hexpanded] at h
  cases hfits with
  | null =>
    rw [related_single hn hv rfl, ok_bind, hn] at h
    cases h
    obtain ⟨data₁, hset, hdata₁, hread, hbut⟩ := exists_set_navigation ha hf hname hsingle hstores
      (.inl ⟨data, hdata, hv⟩) (setNavigation.eq_2 s a n.name data₀) hdata₀
    exact ⟨data₁, hset, hdata₁, .none hexpanded hn hv hread, hbut⟩
  | item hitem =>
    obtain ⟨other, hother, rfl⟩ := hitem.exists_record
    rw [related_single hn hv rfl, ok_bind, hn] at h
    obtain ⟨en, hen, h⟩ := bind_eq_ok.mp h
    cases h
    obtain ⟨other', hrecord, hother', halike⟩ := exists_expand hentities hother hen
    have hwritten : Nested kinds f.type (.record ⟨nested, other'⟩) := by
      rw [htype]
      exact .record hother'
    have hshape : a.fieldType? n.name = some (.record nested) := by
      rw [hname, fieldType?_of_mem ha hf hsingle, htype]
    have hset : s.setNavigation a n.name (.single (some en)) data₀
        = a.set data₀ n.name (.record ⟨nested, other'⟩) := by
      rw [setNavigation, hshape]
      change s.toRecord en nested >>= _ = _
      rw [hrecord, pure_bind]
    obtain ⟨data₁, hset, hdata₁, hread, hbut⟩ := exists_set_navigation ha hf hname hsingle hstores
      (.inr hwritten) hset hdata₀
    exact ⟨data₁, hset, hdata₁, .single hexpanded hn hv hread halike, hbut⟩

theorem exists_setNavigation (hentities : selection.isExpanded n.name = true →
      s.RebuildsEntities kinds (selection.navigate n.name))
    (ha : a.Lawful kinds shape) (hf : f ∈ a.fields) (hfn : s.registry.navigation? f = some n)
    {fresh : α} (hcreate : a.create = .ok fresh) (hsame : a.SameAt n.name fresh data₀)
    (hdata : IsOf kinds shape data) (h : s.link a data selection n = .ok l)
    (hdata₀ : IsOf kinds shape data₀)
    : ∃ data₁,
        s.setNavigation a n.name l.target data₀ = pure data₁
          ∧
        s.Relinks kinds shape a selection n data data₀ data₁ := by
  obtain ⟨nested, e, htype, _, hname, hmultiplicity, _⟩ := Registry.exists_of_navigation? hfn
  cases hexpanded : selection.isExpanded n.name with
  | false =>
    unfold link at h
    rw [hexpanded] at h
    cases h
    refine ⟨data₀, ?_, hdata₀, .deferred hexpanded hcreate hsame, .refl a _ data₀⟩
    rw [setNavigation]
  | true =>
    cases hmany : f.collection with
    | true =>
      rw [hmany] at hmultiplicity
      exact relinks_many (hentities hexpanded) ha hf hname htype hmany hmultiplicity hexpanded
        hdata h hdata₀
    | false =>
      rw [hmany] at hmultiplicity
      exact relinks_single (hentities hexpanded) ha hf hname htype hmany hmultiplicity hexpanded
        hdata h hdata₀

theorem followLinks_cons {en : Entity α} (h : en.link? n.name = some l)
    (navigations : List Navigation)
    : s.followLinks a en (n :: navigations) data
        = s.setNavigation a n.name l.target data >>= fun data' =>
            s.followLinks a en navigations data' := by
  rw [followLinks]
  split
  . next hnone =>
    rw [h] at hnone
    cases hnone
  . next l' hl' =>
    rw [h] at hl'
    cases hl'
    rfl

theorem exists_followLinks {en : Entity α} {ns : List Navigation} {fresh : α}
    (hentities : ∀ n : Navigation, selection.isExpanded n.name = true →
      s.RebuildsEntities kinds (selection.navigate n.name))
    (ha : a.Lawful kinds shape) (hdata : IsOf kinds shape data) (hdata₀ : IsOf kinds shape data₀)
    (hcreate : a.create = .ok fresh) (hnodup : (ns.map (·.name)).Nodup)
    (hns : ∀ n ∈ ns, ∃ f ∈ a.fields, s.registry.navigation? f = some n)
    (hsame : ∀ n ∈ ns, a.SameAt n.name fresh data₀)
    (hlinks : ∀ n ∈ ns, ∃ l, s.link a data selection n = .ok l ∧ en.link? n.name = some l)
    : ∃ data₁,
        s.followLinks a en ns data₀ = pure data₁
          ∧
        IsOf kinds shape data₁
          ∧
        (∀ n ∈ ns, s.AlikeLink selection a n data data₁)
          ∧
        a.SameBut (ns.map (·.name)) data₀ data₁ := by
  induction ns generalizing data₀ with
  | nil =>
    refine ⟨data₀, ?_, hdata₀, by simp, .refl a _ data₀⟩
    rw [followLinks]
  | cons n ns ih =>
    rw [List.map_cons, List.nodup_cons] at hnodup
    have hstores : ∀ n' ∈ n :: ns, a.Stores n'.name := by
      intro n' hn'
      obtain ⟨f, hf, hfn⟩ := hns n' hn'
      obtain ⟨_, _, htype, _, hname, _⟩ := Registry.exists_of_navigation? hfn
      exact hname ▸ stores_of_record ha hf htype
    obtain ⟨f, hf, hfn⟩ := hns n (by simp)
    obtain ⟨l, hl, hfound⟩ := hlinks n (by simp)
    obtain ⟨data₁, hset, hrelinks⟩ := exists_setNavigation (hentities n) ha hf hfn hcreate
      (hsame n (by simp)) hdata hl hdata₀
    -- The navigations that come later are still those of a new record.
    have hsame₁ : ∀ n' ∈ ns, a.SameAt n'.name fresh data₁ := by
      intro n' hn'
      have hne : n'.name ∉ [n.name] := by
        intro heq
        apply hnodup.1
        rw [← List.mem_singleton.mp heq]
        exact List.mem_map_of_mem hn'
      obtain ⟨hget, hgetAll⟩ := hsame n' (by simp [hn'])
      obtain ⟨hget', hgetAll'⟩ := hrelinks.others n'.name hne (hstores n' (by simp [hn']))
      exact ⟨hget.trans hget', hgetAll.trans hgetAll'⟩
    obtain ⟨data₂, hfollow, hdata₂, halike, hothers⟩ := ih hrelinks.isOf hnodup.2
      (fun n hn => hns n (by simp [hn])) hsame₁ (fun n hn => hlinks n (by simp [hn]))
    refine ⟨data₂, ?_, hdata₂, ?_, hrelinks.others.trans hothers⟩
    . rw [followLinks_cons hfound, hset, pure_bind, hfollow]
    . intro n' hn'
      rcases List.mem_cons.mp hn' with rfl | hn'
      . exact hrelinks.alike.of_sameAt (hothers n'.name hnodup.1 (hstores n' (by simp)))
      . exact halike n' hn'

theorem exists_of_setOfShape {set : EntitySet} (hdistinct : s.registry.Distinct)
    (hgenerate : s.registry.generate s.config = .ok s.model) (h : s.setOfShape shape = .ok set)
    : ∃ e ∈ s.registry.sets,
        s.registry.setOfShape? shape = some e
          ∧
        e.shape = shape
          ∧
        s.model.entitySet e.name = .ok set
          ∧
        s.entry set.name = .ok e
          ∧
        s.registry.EntityTypeOf e set.type := by
  unfold setOfShape at h
  split at h
  . cases h
  . next e he =>
    obtain ⟨hmem, rfl⟩ := Registry.mem_of_setOfShape? he
    obtain ⟨t, ht, _, hof⟩ := Registry.exists_entitySet hgenerate hmem
    have hset : set = ⟨e.name, t⟩ := Except.ok.inj (h.symm.trans ht)
    subst hset
    refine ⟨e, hmem, he, rfl, ht, ?_, hof⟩
    unfold entry
    rw [Registry.set?_of_mem hdistinct hmem]

theorem rebuildsEntities (hdistinct : s.registry.Distinct)
    (hgenerate : s.registry.generate s.config = .ok s.model)
    (hlawful : s.registry.LawfulTyped kinds) (hnull : s.showsNull = true)
    (selection : Selection) (hselect : selection.select = [])
    : s.RebuildsEntities kinds selection := by
  intro shape data set en hset hdata h
  obtain ⟨e, hmem, he, rfl, hentitySet, hentry, hof⟩ :=
    exists_of_setOfShape hdistinct hgenerate hset
  obtain ⟨htyped, hhooks⟩ := hlawful.sets e hmem
  have ha := htyped.lawful
  obtain ⟨e', values, he', _, hvalues, henvalues, hlinks, _, _⟩ := exists_of_toEntity h
  obtain rfl : e = e' := by
    rw [hentry] at he'
    exact Except.ok.inj he'
  -- Nothing is left out of an entity of which nothing is selected.
  have hall : ∀ name, selection.isSelected name = true := by
    intro name
    unfold Selection.isSelected
    rw [hselect]
    rfl
  rw [List.filter_eq_self.mpr fun p _ => hall p.name] at hvalues
  rw [List.filter_eq_self.mpr fun n _ => hall n.name] at hlinks
  have hproperties : (set.type.properties.map (·.name)).Nodup :=
    ha.names.sublist hof.properties.filter.names
  have hnavigations : (set.type.navigations.map (·.name)).Nodup := by
    rw [hof.navigations]
    exact ha.names.sublist Registry.names_of_navigations
  have hfields : ∀ n ∈ set.type.navigations, ∃ f ∈ e.accessor.fields,
      s.registry.navigation? f = some n := by
    intro n hn
    rw [hof.navigations] at hn
    exact List.mem_filterMap.mp hn
  have hentities : ∀ n : Navigation, selection.isExpanded n.name = true →
      s.RebuildsEntities kinds (selection.navigate n.name) := by
    intro n hn
    exact rebuildsEntities hdistinct hgenerate hlawful hnull (selection.navigate n.name) hselect
  obtain ⟨fresh, hcreate, hfresh⟩ := ha.create
  obtain ⟨data₁, hfill, hdata₁, halike, hothers⟩ :=
    exists_fill (rebuilds hdistinct hgenerate hlawful hnull nestingLimit) ha hnull hdata hfresh
      hproperties (fun p hp => hof.properties.filter.exists_field hp)
      (fun p hp => find?_of_namedValue hproperties hvalues hp)
  -- The navigations are still those of a new record when the properties are set.
  have hsame : ∀ n ∈ set.type.navigations, e.accessor.SameAt n.name fresh data₁ := by
    intro n hn
    obtain ⟨f, hf, hfn⟩ := hfields n hn
    obtain ⟨_, _, htype, _, hname, _⟩ := Registry.exists_of_navigation? hfn
    apply hothers n.name
    . intro hp
      obtain ⟨p, hp, heq⟩ := List.mem_map.mp hp
      exact hof.ne_of_mem ha.names hp hn heq
    . exact hname ▸ stores_of_record ha hf htype
  obtain ⟨data₂, hfollow, hdata₂, halikes, hothers₂⟩ :=
    exists_followLinks hentities ha hdata hdata₁ hcreate hnavigations hfields hsame
      (fun n hn => link?_of_mapM hnavigations hlinks hn)
  refine ⟨data₂, ?_, hdata₂, .mk he hentitySet ?_ halikes⟩
  . rw [toRecord, he]
    dsimp
    rw [hentitySet, lift_ok, pure_bind, hcreate, lift_ok, pure_bind, hhooks]
    change s.fill _ _ _ _ >>= _ = _
    rw [henvalues, hfill, pure_bind, hfollow]
    rfl
  . intro p hp hstored
    refine (halike p hp hstored).of_sameAt (hothers₂ p.name ?_ hstored)
    intro hn
    obtain ⟨n, hn, heq⟩ := List.mem_map.mp hn
    exact hof.ne_of_mem ha.names hp hn heq.symm
termination_by selection.remaining
decreasing_by exact Selection.remaining_navigate_lt (by assumption)

/--
A record that is shown with any navigations expanded can be made again from the entity. The new one
reads the same in all properties, and so do the records at the far ends of the expanded navigations;
the other navigations are those of a new record.
-/
theorem exists_toRecord (hdistinct : s.registry.Distinct)
    (hgenerate : s.registry.generate s.config = .ok s.model)
    (hlawful : s.registry.LawfulTyped kinds) (hnull : s.config.includeNullProperties = true)
    {r : Record α} {set : EntitySet} {expand : List Path} {en : Entity α}
    (hset : s.setOfShape r.shape = .ok set) (hr : IsOf kinds r.shape r.data)
    (h : s.toEntity set r (.expandAll expand) = .ok en)
    : ∃ r',
        s.toRecord en r.shape = pure r'
          ∧
        r'.shape = r.shape
          ∧
        s.AlikeEntity (.expandAll expand) r.shape r.data r'.data := by
  obtain ⟨data', hrecord, _, halike⟩ :=
    rebuildsEntities hdistinct hgenerate hlawful hnull (.expandAll expand) rfl r.shape r.data set en
      hset hr h
  exact ⟨⟨r.shape, data'⟩, hrecord, rfl, halike⟩

end

end Snapshot

/-! ### Items with details -/

namespace Items

structure Item where
  name : String
  tags : List String
  details : List Item
  cover : Option Item
  next : Option Item

def kind : Kind Item Item := ⟨"Item", id, some, fun _ => rfl⟩

def kinds : (shape : Shape) → Kind Item Item := fun _ => kind

def itemShape : Shape := ⟨"item"⟩

def detailShape : Shape := ⟨"detail"⟩

def name : Member Item Item :=
  (Member.simple "Name" .string .string (·.name) fun i name => { i with name }).notNull

def tags : Member Item Item :=
  .simples "Tags" .string .string (·.tags) fun i tags => { i with tags }

def details : Member Item Item :=
  .records "Details" detailShape (kinds detailShape) (·.details) fun i details => { i with details }

def cover : Member Item Item :=
  .record "Cover" detailShape (kinds detailShape) (·.cover) fun i cover => { i with cover }

def next : Member Item Item :=
  .record "Next" itemShape (kinds itemShape) (·.next) fun i next => { i with next }

def empty : Item := ⟨"", [], [], none, none⟩

def all : List (Member Item Item) := [name, tags, details, cover, next]

theorem agrees {t t' : Item} {changed : String} (hname : "Name" ≠ changed → t.name = t'.name)
    (htags : "Tags" ≠ changed → t.tags = t'.tags)
    (hdetails : "Details" ≠ changed → t.details = t'.details)
    (hcover : "Cover" ≠ changed → t.cover = t'.cover) (hnext : "Next" ≠ changed → t.next = t'.next)
    : ∀ m ∈ all, m.field.name ≠ changed → m.slot.Agrees t t' := by
  intro m hm hne
  simp only [all, List.mem_cons, List.not_mem_nil, or_false] at hm
  rcases hm with rfl | rfl | rfl | rfl | rfl
  . exact congrArg (fun name => FieldValue.ofValue (.string name)) (hname hne)
  . exact congrArg (List.map fun tag => FieldValue.ofValue (.string tag)) (htags hne)
  . exact congrArg (List.map fun i => FieldValue.record ⟨detailShape, i⟩) (hdetails hne)
  . simp only [cover, Member.record, Member.single, Slot.Agrees, hcover hne]
  . simp only [next, Member.record, Member.single, Slot.Agrees, hnext hne]

theorem declared : ∀ m ∈ all, m.Declared kinds := by
  intro m hm
  simp only [all, List.mem_cons, List.not_mem_nil, or_false] at hm
  rcases hm with rfl | rfl | rfl | rfl | rfl
  . exact .notNull (.simple _ _ _ _ _)
  . exact .simples _ _ _ _ _
  . exact .records _ _ _ _
  . exact .record _ _ _ _
  . exact .record _ _ _ _

theorem agrees_details (t : Item) (details : List Item)
    : ∀ m ∈ all, m.field.name ≠ "Details" → m.slot.Agrees t { t with details } :=
  agrees (fun _ => rfl) (fun _ => rfl) (fun h => absurd rfl h) (fun _ => rfl) (fun _ => rfl)

theorem agrees_cover (t : Item) (cover : Option Item)
    : ∀ m ∈ all, m.field.name ≠ "Cover" → m.slot.Agrees t { t with cover } :=
  agrees (fun _ => rfl) (fun _ => rfl) (fun _ => rfl) (fun h => absurd rfl h) (fun _ => rfl)

theorem agrees_next (t : Item) (next : Option Item)
    : ∀ m ∈ all, m.field.name ≠ "Next" → m.slot.Agrees t { t with next } :=
  agrees (fun _ => rfl) (fun _ => rfl) (fun _ => rfl) (fun _ => rfl) (fun h => absurd rfl h)

theorem lawful : ∀ m ∈ all, m.Lawful all := by
  intro m hm
  simp only [all, List.mem_cons, List.not_mem_nil, or_false] at hm
  rcases hm with rfl | rfl | rfl | rfl | rfl
  . apply Member.Lawful.notNull
    apply Member.lawful_simple (fun _ => rfl) (fun _ _ => rfl)
    intro t x
    exact agrees (fun h => absurd rfl h) (fun _ => rfl) (fun _ => rfl) (fun _ => rfl) (fun _ => rfl)
  . apply Member.lawful_simples (fun _ => rfl) (fun _ _ => rfl)
    intro t xs
    exact agrees (fun _ => rfl) (fun h => absurd rfl h) (fun _ => rfl) (fun _ => rfl) (fun _ => rfl)
  . exact Member.lawful_records (fun _ _ => rfl) agrees_details
  . exact Member.lawful_record (fun _ _ => rfl) agrees_cover
  . exact Member.lawful_record (fun _ _ => rfl) agrees_next

theorem keepsNested : ∀ m ∈ all, m.KeepsNested kinds all := by
  intro m hm
  simp only [all, List.mem_cons, List.not_mem_nil, or_false] at hm
  rcases hm with rfl | rfl | rfl | rfl | rfl
  . exact Member.keepsNested_simple.notNull
  . exact Member.keepsNested_simples
  . exact Member.keepsNested_records (fun _ _ => rfl) agrees_details
  . exact Member.keepsNested_record (fun _ _ => rfl) agrees_cover
  . exact Member.keepsNested_record (fun _ _ => rfl) agrees_next

def entry : SetEntry Item where
  name := "Items"
  typeName := "Item"
  shape := itemShape
  accessor := .typed (kinds itemShape) empty all
  keys := ["Name"]
  records := []
  hooks? := none

def detail : ComplexEntry Item where
  typeName := "Detail"
  shape := detailShape
  accessor := .typed (kinds detailShape) empty [name, tags]
  hooks? := none

def registry : Registry Item := { sets := [entry], complexTypes := [detail] }

theorem distinct : registry.Distinct where
  setNames := by decide
  setShapes := by decide
  complexShapes := by decide

theorem lawfulTyped : registry.LawfulTyped kinds where
  sets := by
    intro e he
    obtain rfl : e = entry := List.mem_singleton.mp he
    exact ⟨.typed (by decide) declared lawful keepsNested, rfl⟩
  complexTypes := by
    intro e he
    obtain rfl : e = detail := List.mem_singleton.mp he
    have hsub : ∀ m ∈ [name, tags], m ∈ all := by
      intro m hm
      simp only [List.mem_cons, List.not_mem_nil, or_false] at hm
      rcases hm with rfl | rfl
      . exact List.mem_cons_self
      . exact List.mem_cons_of_mem _ List.mem_cons_self
    refine ⟨.typed (by decide) ?_ ?_ ?_, rfl⟩
    . exact fun m hm => declared m (hsub m hm)
    . exact fun m hm => (lawful m (hsub m hm)).mono hsub
    . exact fun m hm => (keepsNested m (hsub m hm)).mono hsub

def detailType : ComplexType where
  namespace_ := "InMemory"
  name := "Detail"
  properties := [
    ⟨"Name", .simple .string, false⟩,
    ⟨"Tags", .collection .list (.simple .string), true⟩]

def type : EntityType where
  namespace_ := "InMemory"
  name := "Item"
  keys := ["Name"]
  properties := [
    ⟨"Name", .simple .string, false⟩,
    ⟨"Tags", .collection .list (.simple .string), true⟩,
    ⟨"Details", .collection .list (.complex detailType), true⟩,
    ⟨"Cover", .complex detailType, true⟩]
  navigations := [⟨"Next", .zeroOrOne, "Item"⟩]

def model : Model where
  namespace_ := "InMemory"
  containerName := "Container"
  sets := [⟨"Items", type⟩]
  complexTypes := [detailType]
  setNames_nodup := by decide
  typeNames_nodup := by decide
  complexNames_nodup := by decide

def snapshot : Snapshot Item := ⟨registry, model, {}⟩

theorem generate_eq : registry.generate {} = .ok model := by cbv

def page : Item := { empty with name := "page", tags := ["b", "a", "b"] }

def book : Item :=
  { empty with name := "book", details := [page, { page with tags := [] }], next := some page }

def detailValues (i : Item) : List NamedValue := [
  ⟨"Name", .simple .string, .simple (.string i.name)⟩,
  ⟨"Tags", .collection .list (.simple .string),
    .collection (.simple .string) (i.tags.map fun tag => .simple (.string tag))⟩]

def entity (i : Item) (next : Target Item) : Entity Item where
  set := "Items"
  type
  key := .single (.string i.name)
  values := detailValues i ++ [
    ⟨"Details", .collection .list (.complex detailType),
      .collection (.complex detailType) (i.details.map fun d => .complex (detailValues d))⟩,
    ⟨"Cover", .complex detailType, .complex (i.cover.map detailValues)⟩]
  links := [⟨"Next", next⟩]
  record? := some ⟨itemShape, i⟩

theorem toEntity_eq
    : snapshot.toEntity ⟨"Items", type⟩ ⟨itemShape, book⟩ (.expandAll [["Next"]])
        = .ok (entity book (.single (some (entity page (.deferred false))))) := by
  cbv

theorem exists_book
    : ∃ r,
        snapshot.toRecord (entity book (.single (some (entity page (.deferred false))))) itemShape
          = pure r
          ∧
        r.shape = itemShape
          ∧
        snapshot.AlikeEntity (.expandAll [["Next"]]) itemShape book r.data := by
  have hbook : IsOf kinds itemShape book := ⟨book, rfl⟩
  exact Snapshot.exists_toRecord distinct generate_eq lawfulTyped rfl (r := ⟨itemShape, book⟩) rfl
    hbook toEntity_eq

end Items

/-! ### Letters with replies -/

/-- The accessor of typed records with fields of different names that keep what they show. -/
def Accessor.KeepsShown (a : Accessor α) : Prop :=
  ∃ (τ : Type) (k : Kind α τ) (empty : τ) (members : List (Member α τ)),
    a = .typed k empty members
      ∧
    (members.map (·.field.name)).Nodup
      ∧
    ∀ m ∈ members, m.Lawful members

structure Registry.KeepsShown (r : Registry α) : Prop where
  sets : ∀ e ∈ r.sets, e.accessor.KeepsShown ∧ e.hooks? = none
  complexTypes : ∀ e ∈ r.complexTypes, e.accessor.KeepsShown ∧ e.hooks? = none

namespace Letters

/-- Letters with a copy of what they are about and a reply. -/
structure Letter where
  title : String
  copy : Option Letter
  reply : Option Letter

def kind : Kind (Letter ⊕ Unit) Letter := ⟨"Letter", .inl, Sum.getLeft?, fun _ => rfl⟩

def kinds : (shape : Shape) → Kind (Letter ⊕ Unit) Letter := fun _ => kind

def blank : Kind (Letter ⊕ Unit) Unit := ⟨"Blank", .inr, Sum.getRight?, fun _ => rfl⟩

def letterShape : Shape := ⟨"letter"⟩

def copyShape : Shape := ⟨"copy"⟩

def title : Member (Letter ⊕ Unit) Letter :=
  (Member.simple "Title" .string .string (·.title) fun l title => { l with title }).notNull

def copy : Member (Letter ⊕ Unit) Letter :=
  .record "Copy" copyShape (kinds copyShape) (·.copy) fun l copy => { l with copy }

/-- A reply is only shown if there is a reply to it. -/
def reply : Member (Letter ⊕ Unit) Letter :=
  .record "Reply" letterShape (kinds letterShape) (·.reply.filter (·.reply.isSome))
    fun l reply => { l with reply }

def empty : Letter := ⟨"", none, none⟩

def all : List (Member (Letter ⊕ Unit) Letter) := [title, copy, reply]

theorem agrees {t t' : Letter} {changed : String} (htitle : "Title" ≠ changed → t.title = t'.title)
    (hcopy : "Copy" ≠ changed → t.copy = t'.copy) (hreply : "Reply" ≠ changed → t.reply = t'.reply)
    : ∀ m ∈ all, m.field.name ≠ changed → m.slot.Agrees t t' := by
  intro m hm hne
  simp only [all, List.mem_cons, List.not_mem_nil, or_false] at hm
  rcases hm with rfl | rfl | rfl
  . exact congrArg (fun title => FieldValue.ofValue (.string title)) (htitle hne)
  . simp only [copy, Member.record, Member.single, Slot.Agrees, hcopy hne]
  . simp only [reply, Member.record, Member.single, Slot.Agrees, hreply hne]

theorem lawful : ∀ m ∈ all, m.Lawful all := by
  intro m hm
  simp only [all, List.mem_cons, List.not_mem_nil, or_false] at hm
  rcases hm with rfl | rfl | rfl
  . apply Member.Lawful.notNull
    apply Member.lawful_simple (fun _ => rfl) (fun _ _ => rfl)
    intro t x
    exact agrees (fun h => absurd rfl h) (fun _ => rfl) (fun _ => rfl)
  . apply Member.lawful_record (fun _ _ => rfl)
    intro t x
    exact agrees (fun _ => rfl) (fun h => absurd rfl h) (fun _ => rfl)
  . refine ⟨?_, by rintro _ _ ⟨⟩⟩
    rintro _ _ ⟨⟩ t₀ t
    dsimp
    refine ⟨{ t with reply := t₀.reply.filter (·.reply.isSome) }, ?_, ?_,
      agrees (fun _ => rfl) (fun _ => rfl) (fun h => absurd rfl h)⟩
    . cases t₀.reply.filter (·.reply.isSome) <;> rfl
    . rw [Option.filter_filter]
      simp

def entry : SetEntry (Letter ⊕ Unit) where
  name := "Letters"
  typeName := "Letter"
  shape := letterShape
  accessor := .typed kind empty all
  keys := ["Title"]
  records := []
  hooks? := none

/-- The records that are made as copies are none that a letter takes. -/
def copies : ComplexEntry (Letter ⊕ Unit) where
  typeName := "Copy"
  shape := copyShape
  accessor := .typed blank () []
  hooks? := none

def registry : Registry (Letter ⊕ Unit) := { sets := [entry], complexTypes := [copies] }

def copyType : ComplexType := ⟨"InMemory", "Copy", []⟩

def type : EntityType where
  namespace_ := "InMemory"
  name := "Letter"
  keys := ["Title"]
  properties := [⟨"Title", .simple .string, false⟩, ⟨"Copy", .complex copyType, true⟩]
  navigations := [⟨"Reply", .zeroOrOne, "Letter"⟩]

def model : Model where
  namespace_ := "InMemory"
  containerName := "Container"
  sets := [⟨"Letters", type⟩]
  complexTypes := [copyType]
  setNames_nodup := by decide
  typeNames_nodup := by decide
  complexNames_nodup := by decide

def snapshot : Snapshot (Letter ⊕ Unit) := ⟨registry, model, {}⟩

def entity (l : Letter) (reply : Target (Letter ⊕ Unit)) : Entity (Letter ⊕ Unit) where
  set := "Letters"
  type
  key := .single (.string l.title)
  values := [
    ⟨"Title", .simple .string, .simple (.string l.title)⟩,
    ⟨"Copy", .complex copyType, .complex (l.copy.map fun _ => [])⟩]
  links := [⟨"Reply", reply⟩]
  record? := some ⟨letterShape, .inl l⟩

def note : Letter := { empty with title := "note", copy := some empty }

def last : Letter := { empty with title := "last" }

def answer : Letter := { empty with title := "answer", reply := some last }

def question : Letter := { empty with title := "question", reply := some answer }

theorem generate_eq : registry.generate {} = .ok model := by cbv

theorem toEntity_note
    : snapshot.toEntity ⟨"Letters", type⟩ ⟨letterShape, .inl note⟩ (.expandAll [])
        = .ok (entity note (.deferred false)) := by
  cbv

theorem toRecord_note
    : (snapshot.toRecord (entity note (.deferred false)) letterShape).run.run []
        = (.error (.invalidRecord (.wrongRecord "shape:copy" "Letter")), []) := by
  cbv

theorem toEntity_question
    : snapshot.toEntity ⟨"Letters", type⟩ ⟨letterShape, .inl question⟩ (.expandAll [["Reply"]])
        = .ok (entity question (.single (some (entity answer (.deferred false))))) := by
  cbv

/-- The question that is made from its entity has an answer without a reply. -/
def forgotten : Letter := { question with reply := some { answer with reply := none } }

theorem toRecord_question
    : (snapshot.toRecord (entity question (.single (some (entity answer (.deferred false)))))
          letterShape).run.run []
        = (.ok ⟨letterShape, .inl forgotten⟩, []) := by
  cbv

theorem not_alike_question
    : ¬ snapshot.AlikeEntity (.expandAll [["Reply"]]) letterShape (.inl question)
        (.inl forgotten) := by
  rintro (⟨he, hset, _, hnavigations⟩)
  obtain rfl := Option.some.inj he
  obtain rfl := Except.ok.inj hset
  cases hnavigations ⟨"Reply", .zeroOrOne, "Letter"⟩ (by decide) with
  | deferred hexpanded => exact absurd hexpanded (by decide)
  | none hexpanded hn hv => cases hv
  | single hexpanded hn hv hv' => cases hv'
  | many hexpanded hn => cases hn

theorem keepsShown : registry.KeepsShown where
  sets := by
    intro e he
    obtain rfl : e = entry := List.mem_singleton.mp he
    exact ⟨⟨Letter, kind, empty, all, rfl, by decide, lawful⟩, rfl⟩
  complexTypes := by
    intro e he
    obtain rfl : e = copies := List.mem_singleton.mp he
    exact ⟨⟨Unit, blank, (), [], rfl, by decide, by simp⟩, rfl⟩

/--
Fields that keep what they show do not suffice. No letter is made from an entity with a copy, since
the copies that are made are no letters, and a reply is lost if the one that is made is not shown.
-/
theorem letters_lost
    : registry.Distinct
        ∧
      registry.generate {} = .ok model
        ∧
      registry.KeepsShown
        ∧
      snapshot.toEntity ⟨"Letters", type⟩ ⟨letterShape, .inl note⟩ (.expandAll [])
        = .ok (entity note (.deferred false))
        ∧
      (snapshot.toRecord (entity note (.deferred false)) letterShape).run.run []
        = (.error (.invalidRecord (.wrongRecord "shape:copy" "Letter")), [])
        ∧
      snapshot.toEntity ⟨"Letters", type⟩ ⟨letterShape, .inl question⟩ (.expandAll [["Reply"]])
        = .ok (entity question (.single (some (entity answer (.deferred false)))))
        ∧
      (snapshot.toRecord (entity question (.single (some (entity answer (.deferred false)))))
          letterShape).run.run []
        = (.ok ⟨letterShape, .inl forgotten⟩, [])
        ∧
      ¬ snapshot.AlikeEntity (.expandAll [["Reply"]]) letterShape (.inl question)
        (.inl forgotten) := by
  refine ⟨⟨by decide, by decide, by decide⟩, generate_eq, keepsShown, toEntity_note,
    toRecord_note, toEntity_question, toRecord_question, not_alike_question⟩

end Letters

end Edm
