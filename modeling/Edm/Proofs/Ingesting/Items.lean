import Edm.Proofs.Ingesting.Steps
import Edm.Proofs.Ingesting.Storing
import Edm.Proofs.Rebuilding.Entity

/-!
This module contains what becomes of the items of a collection when a record is made from an entity:
there is one element for each of them, in the same order. Only nulls among complex values get lost.
-/

namespace Edm

variable {α : Type}

/-- A null among the complex values of a field of nested records, which is not written. -/
def Item.isLost (type : FieldType) (item : Item) : Bool :=
  match type, item with
  | .record _, .simple .null => true
  | _, _ => false

/-- A value of the form that a property of some type has. -/
def PropertyType.Takes (type : PropertyType) (content : Content) : Prop :=
  match type, content with
  | .single (.simple _), .simple _ => True
  | .single (.complex _), .complex _ => True
  | .collection .., .collection .. => True
  | _, _ => False

structure Registry.StoringTyped (r : Registry α) : Prop where
  sets : ∀ e ∈ r.sets, e.accessor.StoringTyped
  complexTypes : ∀ e ∈ r.complexTypes, e.accessor.StoringTyped

theorem recordShape_eq_ok {name : String} {type? : Option FieldType} {shape : Shape}
    (h : recordShape name type? = .ok shape) : type? = some (.record shape) := by
  unfold recordShape at h
  split at h
  . cases h
    rfl
  . cases h

namespace Snapshot

section

variable (s : Snapshot α) (a : Accessor α) (name : String)

inductive Converts : Item → FieldValue α → Prop where
  | simple (v : Value) : Converts (.simple v) (.ofValue v)
  | complex {values : List NamedValue} {r : Record α}
      (htype : a.itemType? name = some (.record r.shape))
      (h : Gives (s.toComplexRecord values r.shape) r) : Converts (.complex values) (.record r)

/--
What an item has become in a field: the element that the field has if it is given just this value,
and for complex values the record that is made of them.
-/
inductive Becomes : Item → FieldValue α → Prop where
  | simple {v : Value} {w : FieldValue α} (h : a.Keeps name (.ofValue v) w)
      : Becomes (.simple v) w
  | complex {values : List NamedValue} {r : Record α}
      (htype : a.itemType? name = some (.record r.shape))
      (h : Gives (s.toComplexRecord values r.shape) r) : Becomes (.complex values) (.record r)

/-- A field has the nested records and the items of a value. -/
inductive HoldsContent (data : α) : Content → Prop where
  | simple (v : Value) : HoldsContent data (.simple v)
  | null : HoldsContent data (.complex none)
  | complex {values : List NamedValue} {r : Record α}
      (htype : a.fieldType? name = some (.record r.shape))
      (h : Gives (s.toComplexRecord values r.shape) r) (hread : a.get data name = .ok (.record r))
      : HoldsContent data (.complex (some values))
  | collection {t : ItemType} {items : List Item} {type : FieldType}
      {elements : List (FieldValue α)} (htype : a.itemType? name = some type)
      (hread : a.getAll data name = .ok (some elements))
      (hitems :
        List.Forall₂ (s.Becomes a name) (items.filter fun item => !item.isLost type) elements)
      : HoldsContent data (.collection t items)

def MadeOf (shape : Shape) (en : Entity α) (v : FieldValue α) : Prop :=
  ∃ r, v = .record r ∧ r.shape = shape ∧ Gives (s.toRecord en shape) r

/-- A field has the records of the entities that a link shows. -/
inductive HoldsTarget (data : α) : Target α → Prop where
  | deferred (many : Bool) : HoldsTarget data (.deferred many)
  | none : HoldsTarget data (.single none)
  | single {en : Entity α} {r : Record α} (htype : a.fieldType? name = some (.record r.shape))
      (h : Gives (s.toRecord en r.shape) r) (hread : a.get data name = .ok (.record r))
      : HoldsTarget data (.single (some en))
  | many {entities : List (Entity α)} {shape : Shape} {elements : List (FieldValue α)}
      (htype : a.itemType? name = some (.record shape))
      (hread : a.getAll data name = .ok (some elements))
      (hrecords : List.Forall₂ (s.MadeOf shape) entities elements)
      : HoldsTarget data (.many entities)

/-- Each declared property that is among the values has what its value shows. -/
def HoldsValues (declared : List Property) (values : List NamedValue) (data : α) : Prop :=
  ∀ p ∈ declared, ∀ v, NamedValue.find? values p.name = some v →
    p.type.Takes v.content ∧ s.HoldsContent a p.name data v.content

/-- Each declared navigation that is among the links of an entity has what its link shows. -/
def HoldsLinks (navigations : List Navigation) (en : Entity α) (data : α) : Prop :=
  ∀ n ∈ navigations, ∀ l, en.link? n.name = some l → s.HoldsTarget a n.name data l.target

end

section

variable {s : Snapshot α} {a : Accessor α} {name : String} {data data' : α}

theorem HoldsContent.of_sameNested {content : Content} (h : s.HoldsContent a name data content)
    (hsame : a.SameNested name data data') : s.HoldsContent a name data' content := by
  cases h with
  | simple v => exact .simple v
  | null => exact .null
  | complex htype h hread => exact .complex htype h (hsame.get _ htype ▸ hread)
  | collection htype hread hitems => exact .collection htype (hsame.getAll ▸ hread) hitems

theorem HoldsTarget.of_sameNested {target : Target α} (h : s.HoldsTarget a name data target)
    (hsame : a.SameNested name data data') : s.HoldsTarget a name data' target := by
  cases h with
  | deferred many => exact .deferred many
  | none => exact .none
  | single htype h hread => exact .single htype h (hsame.get _ htype ▸ hread)
  | many htype hread hrecords => exact .many htype (hsame.getAll ▸ hread) hrecords

theorem exists_of_toComplexRecord {values : List NamedValue} {shape : Shape} {r : Record α}
    (h : Gives (s.toComplexRecord values shape) r)
    : ∃ e t started data,
        s.registry.complexOfShape? shape = some e
          ∧
        s.model.complexType? e.typeName = some t
          ∧
        Gives (s.fill e.accessor values t.properties started) data
          ∧
        Gives (callHook e.hooks? .after (.complex values) data) r.data
          ∧
        r.shape = shape := by
  rw [toComplexRecord] at h
  split at h
  . exact absurd h not_gives_throw
  . next e he =>
    split at h
    . exact absurd h not_gives_throw
    . next t ht =>
      obtain ⟨fresh, _, h⟩ := gives_bind h
      obtain ⟨started, _, h⟩ := gives_bind h
      obtain ⟨data, hfill, h⟩ := gives_bind h
      obtain ⟨finished, hafter, h⟩ := gives_bind h
      obtain rfl := gives_pure h
      exact ⟨e, t, started, data, he, ht, hfill, hafter, rfl⟩

theorem shape_of_toComplexRecord {values : List NamedValue} {shape : Shape} {r : Record α}
    (h : Gives (s.toComplexRecord values shape) r) : r.shape = shape := by
  obtain ⟨_, _, _, _, _, _, _, _, hshape⟩ := exists_of_toComplexRecord h
  exact hshape

theorem exists_of_toRecord {en : Entity α} {shape : Shape} {r : Record α}
    (h : Gives (s.toRecord en shape) r)
    : ∃ e set started filled data,
        s.registry.setOfShape? shape = some e
          ∧
        s.model.entitySet e.name = .ok set
          ∧
        Gives (s.fill e.accessor en.values set.type.properties started) filled
          ∧
        Gives (s.followLinks e.accessor en set.type.navigations filled) data
          ∧
        Gives (callHook e.hooks? .after (.entity en) data) r.data
          ∧
        r.shape = shape := by
  rw [toRecord] at h
  split at h
  . exact absurd h not_gives_throw
  . next e he =>
    obtain ⟨set, hset, h⟩ := gives_bind h
    obtain ⟨fresh, _, h⟩ := gives_bind h
    obtain ⟨started, _, h⟩ := gives_bind h
    obtain ⟨filled, hfill, h⟩ := gives_bind h
    obtain ⟨data, hfollow, h⟩ := gives_bind h
    obtain ⟨finished, hafter, h⟩ := gives_bind h
    obtain rfl := gives_pure h
    exact ⟨e, set, started, filled, data, he, gives_lift hset, hfill, hfollow, hafter, rfl⟩

theorem shape_of_toRecord {en : Entity α} {shape : Shape} {r : Record α}
    (h : Gives (s.toRecord en shape) r) : r.shape = shape := by
  obtain ⟨_, _, _, _, _, _, _, _, _, _, hshape⟩ := exists_of_toRecord h
  exact hshape

theorem converts_of_fieldValues {items : List Item} {vs : List (FieldValue α)}
    (h : Gives (s.fieldValues a name items) vs) : List.Forall₂ (s.Converts a name) items vs := by
  induction items generalizing vs with
  | nil =>
    rw [fieldValues] at h
    obtain rfl := gives_pure h
    exact .nil
  | cons item items ih =>
    cases item with
    | simple v =>
      rw [fieldValues] at h
      obtain ⟨rest, hrest, h⟩ := gives_bind h
      obtain rfl := gives_pure h
      exact .cons (.simple v) (ih hrest)
    | complex values =>
      rw [fieldValues] at h
      obtain ⟨shape, hshape, h⟩ := gives_bind h
      obtain ⟨r, hr, h⟩ := gives_bind h
      obtain ⟨rest, hrest, h⟩ := gives_bind h
      obtain rfl := gives_pure h
      obtain rfl := shape_of_toComplexRecord hr
      exact .cons (.complex (recordShape_eq_ok (gives_lift hshape)) hr) (ih hrest)

theorem Converts.hasItem_eq {item : Item} {v : FieldValue α} (h : s.Converts a name item v)
    (type : FieldType) : type.hasItem v = !item.isLost type := by
  cases h with
  | simple v => cases v <;> cases type <;> rfl
  | complex => cases type <;> rfl

theorem Converts.becomes (ha : a.Storing) {item : Item} {v w : FieldValue α}
    (h : s.Converts a name item v) (hkeeps : a.Keeps name v w) : s.Becomes a name item w := by
  cases h with
  | simple v => exact .simple hkeeps
  | @complex values r htype h =>
    obtain rfl := ha.keeps_record name r w hkeeps htype
    exact .complex htype h

theorem becomes_of_converts (ha : a.Storing) {type : FieldType} {items : List Item}
    {vs elements : List (FieldValue α)} (hitems : List.Forall₂ (s.Converts a name) items vs)
    (hkeeps : List.Forall₂ (a.Keeps name) (vs.filter type.hasItem) elements)
    : List.Forall₂ (s.Becomes a name) (items.filter fun item => !item.isLost type) elements := by
  induction hitems generalizing elements with
  | nil =>
    cases hkeeps
    exact .nil
  | @cons item v items vs hitem _ ih =>
    rw [List.filter_cons, hitem.hasItem_eq type] at hkeeps
    rw [List.filter_cons]
    split at hkeeps
    . next hkept =>
      rw [if_pos hkept]
      obtain ⟨w, rest, hw, hrest, rfl⟩ := List.forall₂_cons_left_iff.mp hkeeps
      exact .cons (hitem.becomes ha hw) (ih hrest)
    . next hlost =>
      rw [if_neg hlost]
      exact ih hkeeps

theorem holdsContent_of_setProperty (ha : a.Storing) {p : Property} {content : Content}
    (h : Gives (s.setProperty a p content data) data')
    : p.type.Takes content
        ∧
      s.HoldsContent a p.name data' content
        ∧
      ∀ other, other ≠ p.name → a.SameNested other data data' := by
  unfold setProperty at h
  split at h
  . next v htype =>
    have hset := gives_lift h
    refine ⟨?_, .simple v, ha.set_others _ _ _ _ hset⟩
    rw [htype]
    trivial
  . next htype =>
    have hset := gives_lift h
    refine ⟨?_, .null, ha.set_others _ _ _ _ hset⟩
    rw [htype]
    trivial
  . next values htype =>
    obtain ⟨shape, hshape, h⟩ := gives_bind h
    obtain ⟨r, hr, h⟩ := gives_bind h
    have hset := gives_lift h
    obtain rfl := shape_of_toComplexRecord hr
    have hfield := recordShape_eq_ok (gives_lift hshape)
    refine ⟨?_, .complex hfield hr ?_, ha.set_others _ _ _ _ hset⟩
    . rw [htype]
      trivial
    . exact ha.set_record _ _ _ _ hset hfield
  . next htype =>
    obtain ⟨vs, hvs, h⟩ := gives_bind h
    have hset := gives_lift h
    obtain ⟨type, elements, hitem, hread, hkeeps⟩ := ha.setAll_items _ _ _ _ hset
    refine ⟨?_, .collection hitem hread ?_, ha.setAll_others _ _ _ _ hset⟩
    . rw [htype]
      trivial
    . exact becomes_of_converts ha (converts_of_fieldValues hvs) hkeeps
  . exact absurd h not_gives_throw

theorem holdsContent_of_setFound (ha : a.Storing) {p : Property} {v? : Option NamedValue}
    (h : Gives (s.setFound a p v? data) data')
    : (∀ v, v? = some v → p.type.Takes v.content ∧ s.HoldsContent a p.name data' v.content)
        ∧
      ∀ other, other ≠ p.name → a.SameNested other data data' := by
  cases v? with
  | none =>
    rw [setFound] at h
    split at h
    . obtain rfl := gives_pure h
      exact ⟨by simp, fun other _ => .refl a other data⟩
    . exact absurd h not_gives_throw
  | some v =>
    obtain ⟨htakes, hcontent, hothers⟩ := holdsContent_of_setProperty ha h
    refine ⟨?_, hothers⟩
    rintro _ ⟨⟩
    exact ⟨htakes, hcontent⟩

theorem holdsValues_of_fill (ha : a.Storing) {values : List NamedValue} {declared : List Property}
    (h : Gives (s.fill a values declared data) data')
    : s.HoldsValues a declared values data'
        ∧
      ∀ other, (∀ p ∈ declared, other ≠ p.name) → a.SameNested other data data' := by
  induction declared generalizing data with
  | nil =>
    rw [fill] at h
    obtain rfl := gives_pure h
    exact ⟨by simp [HoldsValues], fun other _ => .refl a other data⟩
  | cons p declared ih =>
    rw [fill_cons_eq] at h
    obtain ⟨data₁, hset, h⟩ := gives_bind h
    obtain ⟨hfound, hframe⟩ := holdsContent_of_setFound ha hset
    obtain ⟨hholds, hothers⟩ := ih h
    constructor
    . intro p' hp' v hv
      rcases List.mem_cons.mp hp' with rfl | hp'
      . obtain ⟨htakes, hcontent⟩ := hfound v hv
        refine ⟨htakes, ?_⟩
        -- A later property of the same name would set the field to the same value.
        by_cases hlater : ∃ q ∈ declared, q.name = p'.name
        . obtain ⟨q, hq, hname⟩ := hlater
          rw [← hname]
          exact (hholds q hq v (hname ▸ hv)).2
        . apply hcontent.of_sameNested
          apply hothers
          exact fun q hq hname => hlater ⟨q, hq, hname.symm⟩
      . exact hholds p' hp' v hv
    . intro other hother
      exact (hframe other (hother p (by simp))).trans
        (hothers other fun p' hp' => hother p' (by simp [hp']))

theorem records_of_toRecords {entities : List (Entity α)} {shape : Shape} {vs : List (FieldValue α)}
    (h : Gives (s.toRecords entities shape) vs)
    : List.Forall₂ (s.MadeOf shape) entities vs := by
  induction entities generalizing vs with
  | nil =>
    rw [toRecords] at h
    obtain rfl := gives_pure h
    exact .nil
  | cons en entities ih =>
    rw [toRecords] at h
    obtain ⟨r, hr, h⟩ := gives_bind h
    obtain ⟨rest, hrest, h⟩ := gives_bind h
    obtain rfl := gives_pure h
    exact .cons ⟨r, rfl, shape_of_toRecord hr, hr⟩ (ih hrest)

theorem records_of_keeps (ha : a.Storing) {shape : Shape}
    (htype : a.itemType? name = some (.record shape)) {entities : List (Entity α)}
    {vs elements : List (FieldValue α)} (hrecords : List.Forall₂ (s.MadeOf shape) entities vs)
    (hkeeps : List.Forall₂ (a.Keeps name) (vs.filter (FieldType.record shape).hasItem) elements)
    : List.Forall₂ (s.MadeOf shape) entities elements := by
  induction hrecords generalizing elements with
  | nil =>
    cases hkeeps
    exact .nil
  | cons hen _ ih =>
    obtain ⟨r, rfl, rfl, hr⟩ := hen
    obtain ⟨w, rest, hw, hrest, rfl⟩ := List.forall₂_cons_left_iff.mp hkeeps
    exact .cons ⟨r, ha.keeps_record name r w hw htype, rfl, hr⟩ (ih hrest)

theorem holdsTarget_of_setNavigation (ha : a.Storing) {target : Target α}
    (h : Gives (s.setNavigation a name target data) data')
    : s.HoldsTarget a name data' target
        ∧
      ∀ other, other ≠ name → a.SameNested other data data' := by
  unfold setNavigation at h
  split at h
  . next many =>
    obtain rfl := gives_pure h
    exact ⟨.deferred many, fun other _ => .refl a other data⟩
  . exact ⟨.none, ha.set_others _ _ _ _ (gives_lift h)⟩
  . next en =>
    obtain ⟨shape, hshape, h⟩ := gives_bind h
    obtain ⟨r, hr, h⟩ := gives_bind h
    have hset := gives_lift h
    obtain rfl := shape_of_toRecord hr
    have hfield := recordShape_eq_ok (gives_lift hshape)
    exact ⟨.single hfield hr (ha.set_record _ _ _ _ hset hfield), ha.set_others _ _ _ _ hset⟩
  . next entities =>
    obtain ⟨shape, hshape, h⟩ := gives_bind h
    obtain ⟨vs, hvs, h⟩ := gives_bind h
    have hset := gives_lift h
    have hitem := recordShape_eq_ok (gives_lift hshape)
    obtain ⟨type, elements, htype, hread, hkeeps⟩ := ha.setAll_items _ _ _ _ hset
    obtain rfl : .record shape = type := Option.some.inj (hitem.symm.trans htype)
    exact ⟨.many hitem hread (records_of_keeps ha hitem (records_of_toRecords hvs) hkeeps),
      ha.setAll_others _ _ _ _ hset⟩

theorem holdsTarget_of_followFound (ha : a.Storing) {l? : Option (Link α)}
    (h : Gives (s.followFound a name l? data) data')
    : (∀ l, l? = some l → s.HoldsTarget a name data' l.target)
        ∧
      ∀ other, other ≠ name → a.SameNested other data data' := by
  cases l? with
  | none =>
    obtain rfl := gives_pure h
    exact ⟨by simp, fun other _ => .refl a other data⟩
  | some l =>
    obtain ⟨htarget, hothers⟩ := holdsTarget_of_setNavigation ha h
    refine ⟨?_, hothers⟩
    rintro _ ⟨⟩
    exact htarget

theorem holdsLinks_of_followLinks (ha : a.Storing) {en : Entity α} {navigations : List Navigation}
    (h : Gives (s.followLinks a en navigations data) data')
    : s.HoldsLinks a navigations en data'
        ∧
      ∀ other, (∀ n ∈ navigations, other ≠ n.name) → a.SameNested other data data' := by
  induction navigations generalizing data with
  | nil =>
    rw [followLinks] at h
    obtain rfl := gives_pure h
    exact ⟨by simp [HoldsLinks], fun other _ => .refl a other data⟩
  | cons n navigations ih =>
    rw [followLinks_cons_eq] at h
    obtain ⟨data₁, hset, h⟩ := gives_bind h
    obtain ⟨hfound, hframe⟩ := holdsTarget_of_followFound ha hset
    obtain ⟨hholds, hothers⟩ := ih h
    constructor
    . intro n' hn' l hl
      rcases List.mem_cons.mp hn' with rfl | hn'
      . by_cases hlater : ∃ m ∈ navigations, m.name = n'.name
        . obtain ⟨m, hm, hname⟩ := hlater
          rw [← hname]
          exact hholds m hm l (hname ▸ hl)
        . apply (hfound l hl).of_sameNested
          apply hothers
          exact fun m hm hname => hlater ⟨m, hm, hname.symm⟩
      . exact hholds n' hn' l hl
    . intro other hother
      exact (hframe other (hother n (by simp))).trans
        (hothers other fun n' hn' => hother n' (by simp [hn']))

/--
A record that is made has what its entity shows: one element for each item and for each entity of a
collection, in the same order, but none for a null among complex values. This is said of the
contents that the last hook is called with, which are those of the record if there is no such hook.
-/
theorem holds_of_ingest (hregistry : s.registry.StoringTyped)
    (hgenerate : s.registry.generate s.config = .ok s.model)
    : (∀ en shape r, Gives (s.toRecord en shape) r →
        ∃ e set data,
          s.registry.setOfShape? shape = some e
            ∧
          s.model.entitySet e.name = .ok set
            ∧
          s.HoldsValues e.accessor set.type.properties en.values data
            ∧
          s.HoldsLinks e.accessor set.type.navigations en data
            ∧
          Gives (callHook e.hooks? .after (.entity en) data) r.data)
        ∧
      ∀ values shape r, Gives (s.toComplexRecord values shape) r →
        ∃ e t data,
          s.registry.complexOfShape? shape = some e
            ∧
          s.model.complexType? e.typeName = some t
            ∧
          s.HoldsValues e.accessor t.properties values data
            ∧
          Gives (callHook e.hooks? .after (.complex values) data) r.data := by
  constructor
  . intro en shape r h
    obtain ⟨e, set, started, filled, data, he, hset, hfill, hfollow, hafter, _⟩ :=
      exists_of_toRecord h
    obtain ⟨hmem, rfl⟩ := Registry.mem_of_setOfShape? he
    have ha := (hregistry.sets e hmem).storing
    obtain ⟨t, ht, _, hof⟩ := Registry.exists_entitySet hgenerate hmem
    obtain rfl : set = ⟨e.name, t⟩ := Except.ok.inj (hset.symm.trans ht)
    obtain ⟨hlinks, hothers⟩ := holdsLinks_of_followLinks ha hfollow
    refine ⟨e, _, data, he, hset, ?_, hlinks, hafter⟩
    -- No navigation has the name of a property.
    intro p hp v hv
    obtain ⟨htakes, hcontent⟩ := (holdsValues_of_fill ha hfill).1 p hp v hv
    refine ⟨htakes, hcontent.of_sameNested (hothers p.name ?_)⟩
    exact fun n hn => hof.ne_of_mem ha.names hp hn
  . intro values shape r h
    obtain ⟨e, t, started, data, he, ht, hfill, hafter, _⟩ := exists_of_toComplexRecord h
    obtain ⟨hmem, _⟩ := Registry.mem_of_complexOfShape? he
    have ha := (hregistry.complexTypes e hmem).storing
    exact ⟨e, t, data, he, ht, (holdsValues_of_fill ha hfill).1, hafter⟩

end

end Snapshot

/-! ### Items with details -/

namespace Items

theorem exact : kind.Exact := by
  intro data t h
  cases h
  rfl

theorem agreeBut {members : List (Member Item Item)} (hsub : ∀ m ∈ members, m ∈ all) {t t' : Item}
    {changed : String} (hname : "Name" ≠ changed → t.name = t'.name)
    (htags : "Tags" ≠ changed → t.tags = t'.tags)
    (hdetails : "Details" ≠ changed → t.details = t'.details)
    (hcover : "Cover" ≠ changed → t.cover = t'.cover) (hnext : "Next" ≠ changed → t.next = t'.next)
    : AgreeBut members changed t t' :=
  fun m hm => agrees hname htags hdetails hcover hnext m (hsub m hm)

theorem storing {members : List (Member Item Item)} (hsub : ∀ m ∈ members, m ∈ all)
    : ∀ m ∈ all, m.Storing members := by
  intro m hm
  simp only [all, List.mem_cons, List.not_mem_nil, or_false] at hm
  rcases hm with rfl | rfl | rfl | rfl | rfl
  . apply Member.Storing.notNull
    apply Member.Storing.simple
    intro t x
    exact agreeBut hsub (fun h => absurd rfl h) (fun _ => rfl) (fun _ => rfl) (fun _ => rfl)
      (fun _ => rfl)
  . apply Member.Storing.simples (fun _ _ => rfl)
    intro t xs
    exact agreeBut hsub (fun _ => rfl) (fun h => absurd rfl h) (fun _ => rfl) (fun _ => rfl)
      (fun _ => rfl)
  . apply Member.Storing.records exact (fun _ _ => rfl)
    intro t xs
    exact agreeBut hsub (fun _ => rfl) (fun _ => rfl) (fun h => absurd rfl h) (fun _ => rfl)
      (fun _ => rfl)
  . apply Member.Storing.record exact (fun _ _ => rfl)
    intro t x
    exact agreeBut hsub (fun _ => rfl) (fun _ => rfl) (fun _ => rfl) (fun h => absurd rfl h)
      (fun _ => rfl)
  . apply Member.Storing.record exact (fun _ _ => rfl)
    intro t x
    exact agreeBut hsub (fun _ => rfl) (fun _ => rfl) (fun _ => rfl) (fun _ => rfl)
      (fun h => absurd rfl h)

theorem storingTyped : registry.StoringTyped where
  sets := by
    intro e he
    obtain rfl : e = entry := List.mem_singleton.mp he
    exact .typed exact (by decide) (storing fun _ hm => hm)
  complexTypes := by
    intro e he
    obtain rfl : e = detail := List.mem_singleton.mp he
    have hsub : ∀ m ∈ [name, tags], m ∈ all := by
      intro m hm
      simp only [List.mem_cons, List.not_mem_nil, or_false] at hm
      rcases hm with rfl | rfl
      . exact List.mem_cons_self
      . exact List.mem_cons_of_mem _ List.mem_cons_self
    exact .typed exact (by decide) fun m hm => storing hsub m (hsub m hm)

def blank : Item := { page with tags := [] }

def givenDetails : NamedValue :=
  ⟨"Details", .collection .list (.complex detailType),
    .collection (.complex detailType)
      [.complex (detailValues page), .simple .null, .complex (detailValues blank)]⟩

def boxEntity : Entity Item where
  set := "Items"
  type
  key := .single (.string "box")
  values := [⟨"Name", .simple .string, .simple (.string "box")⟩, givenDetails]
  links := []
  record? := none

def box : Item := { empty with name := "box", details := [page, blank] }

theorem gives_box : Gives (snapshot.toRecord boxEntity itemShape) ⟨itemShape, box⟩ := by
  refine ⟨[], ?_⟩
  cbv

/-- Not every item of a collection is in the record that is made, although nothing fails. -/
theorem details_lost
    : registry.StoringTyped
        ∧
      registry.generate {} = .ok model
        ∧
      NamedValue.find? boxEntity.values "Details" = some givenDetails
        ∧
      givenDetails.content = .collection (.complex detailType)
        [.complex (detailValues page), .simple .null, .complex (detailValues blank)]
        ∧
      Gives (snapshot.toRecord boxEntity itemShape) ⟨itemShape, box⟩
        ∧
      entry.accessor.getAll box "Details"
        = .ok (some [.record ⟨detailShape, page⟩, .record ⟨detailShape, blank⟩]) :=
  ⟨storingTyped, generate_eq, rfl, rfl, gives_box, rfl⟩

theorem details_kept
    : ∃ elements,
        entry.accessor.getAll box "Details" = .ok (some elements)
          ∧
        List.Forall₂ (snapshot.Becomes entry.accessor "Details")
          [.complex (detailValues page), .complex (detailValues blank)] elements := by
  obtain ⟨e, set, data, he, hset, hvalues, _, hafter⟩ :=
    (Snapshot.holds_of_ingest storingTyped generate_eq).1 _ _ _ gives_box
  cases he
  cases hset
  obtain rfl := gives_pure hafter
  obtain ⟨_, hcontent⟩ := hvalues ⟨"Details", .collection .list (.complex detailType), true⟩
    (by simp [type]) givenDetails rfl
  cases hcontent with
  | collection htype hread hitems =>
    cases htype
    exact ⟨_, hread, hitems⟩

end Items

end Edm
