import Mathlib
import Edm.Accessor.Typed
import Edm.Proofs.Making
import Edm.Proofs.Projection

/-!
This module contains the shape of the graph of entities that shows a record. What an entity of it
shows follows from the selected and the expanded paths and from the links that lead to it.
-/

namespace Edm

variable {α : Type}

namespace Path

/-- The property of what is found at a path is selected: there is no selection, a selected path runs
through it or ends above it, or all of its siblings are selected. -/
def Selects (select : List Path) (path : Path) (name : String) : Prop :=
  select = [] ∨ ∃ selected ∈ select,
    path ++ [name] <+: selected ∨ selected <+: path ++ [name] ∨ selected = path ++ ["*"]

def Expands (expand : List Path) (path : Path) : Prop := ∃ expanded ∈ expand, path <+: expanded

instance (select : List Path) (path : Path) (name : String)
    : Decidable (Selects select path name) :=
  inferInstanceAs (Decidable (_ ∨ _))

instance (expand : List Path) (path : Path) : Decidable (Expands expand path) :=
  inferInstanceAs (Decidable (∃ _ ∈ _, _))

end Path

namespace Selection

open Edm.Path (Selects Expands)

theorem isStarFor_iff {selected path : Path} {name : String}
    : isStarFor selected (path ++ [name]) = true ↔ selected = path ++ ["*"] := by
  unfold isStarFor
  simp only [Bool.and_eq_true, beq_iff_eq, List.isPrefixOf_iff_prefix, List.length_append,
    List.length_singleton]
  constructor
  . rintro ⟨⟨hlength, hlast⟩, hprefix⟩
    obtain ⟨front, rfl⟩ := List.getLast?_eq_some_iff.mp hlast
    rw [List.length_append, List.length_singleton, Nat.add_right_cancel_iff] at hlength
    rw [List.dropLast_concat] at hprefix
    have hfront : front <+: path :=
      List.prefix_of_prefix_length_le hprefix (List.prefix_append path [name])
        (Nat.le_of_eq hlength)
    rw [hfront.eq_of_length hlength]
  . rintro rfl
    simp

theorem isSelected_eq_decide (select expand : List Path) (path : Path) (name : String)
    : isSelected ⟨select, expand, path⟩ name = decide (Selects select path name) := by
  rw [Bool.eq_iff_iff, decide_eq_true_iff]
  unfold isSelected Selects
  simp [isStarFor_iff, List.isEmpty_iff, or_assoc]

theorem isExpanded_iff {select expand : List Path} {path : Path} {name : String}
    : isExpanded ⟨select, expand, path⟩ name = true ↔ Expands expand (path ++ [name]) := by
  simp [isExpanded, Expands]

end Selection

/-! ### What an entity leaves out -/

def FieldValue.isNull : FieldValue α → Bool
  | .null => true
  | .simple v => v.isNull
  | _ => false

def ItemType.isComplex : ItemType → Bool
  | .simple _ => false
  | .complex _ => true

namespace Snapshot

/-- Whether a value is a record whose shape is not that of a complex type of the model. -/
def isUnmapped (s : Snapshot α) : FieldValue α → Bool
  | .record r => ((s.registry.complexOfShape? r.shape).bind fun e =>
      s.model.complexType? e.typeName).isNone
  | _ => false

/--
Whether a property of a record is left out although it is selected: it is null and null values are
not shown, or there is an unmapped record in it. What is declared with a type of entities is not
shown either; generated models declare navigations instead.
-/
def omits (s : Snapshot α) (a : Accessor α) (data : α) (p : Property) : Bool :=
  match p.type with
  | .single (.simple _) => (a.get data p.name).toOption.any fun v => v.isNull && !s.showsNull
  | .single (.complex _) =>
    (a.get data p.name).toOption.any fun v => v.isNull && !s.showsNull || s.isUnmapped v
  | .collection _ item =>
    (a.getAll data p.name).toOption.any fun
      | none => !s.showsNull
      | some vs => item.isComplex && vs.any s.isUnmapped
  | .entity _ => true

variable {s : Snapshot α}

theorem isNone_of_complexValues {depth : Nat} {r : Record α} {values? : Option (List NamedValue)}
    (h : s.complexValues depth r = .ok values?) : values?.isNone = s.isUnmapped (.record r) := by
  dsimp only [isUnmapped]
  cases depth with
  | zero =>
    rw [complexValues] at h
    cases h
  | succ depth =>
    rw [complexValues] at h
    split at h
    . next he =>
      cases h
      rw [he]
      rfl
    . next e he =>
      rw [he]
      split at h
      . next ht =>
        cases h
        rw [Option.bind_some, ht]
        rfl
      . next ht =>
        obtain ⟨values, _, h⟩ := bind_eq_ok.mp h
        cases h
        rw [Option.bind_some, ht]
        rfl

theorem isNone_of_collectionItem {depth : Nat} {name : String} {type : ItemType} {v : FieldValue α}
    {item? : Option Item} (h : s.collectionItem depth name type v = .ok item?)
    : item?.isNone = (type.isComplex && s.isUnmapped v) := by
  rw [collectionItem.eq_def] at h
  split at h
  . obtain ⟨value, _, h⟩ := bind_eq_ok.mp h
    cases h
    rfl
  . obtain ⟨values?, hvalues, h⟩ := bind_eq_ok.mp h
    cases h
    rw [← isNone_of_complexValues hvalues, Option.isNone_map]
    rfl
  . cases h
  . cases h

theorem isNone_of_collectionItems {depth : Nat} {name : String} {type : ItemType}
    {vs : List (FieldValue α)} {items? : Option (List Item)}
    (h : s.collectionItems depth name type vs = .ok items?)
    : items?.isNone = (type.isComplex && vs.any s.isUnmapped) := by
  induction vs generalizing items? with
  | nil =>
    rw [collectionItems] at h
    cases h
    simp
  | cons v vs ih =>
    rw [collectionItems] at h
    obtain ⟨item?, hitem, h⟩ := bind_eq_ok.mp h
    have hnone := isNone_of_collectionItem hitem
    rw [List.any_cons, Bool.and_or_distrib_left, ← hnone]
    cases item? with
    | none =>
      cases h
      rfl
    | some item =>
      obtain ⟨rest?, hrest, h⟩ := bind_eq_ok.mp h
      cases h
      rw [Option.isNone_map, ih hrest]
      rfl

theorem isNull_of_simpleValue {name : String} {field : FieldValue α} {v : Value}
    (h : field.simpleValue name = .ok v) : v.isNull = field.isNull := by
  cases field with
  | record => cases h
  | _ =>
    cases h
    rfl

theorem isNone_of_namedValue {depth : Nat} {a : Accessor α} {data : α} {p : Property}
    {v? : Option NamedValue} (h : s.namedValue depth a data p = .ok v?)
    : v?.isNone = s.omits a data p := by
  unfold omits
  cases projects_of_namedValue h with
  | simple htype hfield hv hshown =>
    rw [isNull_of_simpleValue hv] at hshown
    rw [htype, hfield]
    exact hshown.symm
  | nullSimple htype hfield hv hnull =>
    rw [isNull_of_simpleValue hv] at hnull
    rw [htype, hfield]
    exact hnull.symm
  | shownNull htype hfield hshown =>
    rw [htype, hfield, hshown]
    rfl
  | hiddenNull htype hfield hhidden =>
    rw [htype, hfield, hhidden]
    rfl
  | complex htype hfield hvalues =>
    rw [htype, hfield]
    exact isNone_of_complexValues hvalues
  | unmapped htype hfield hvalues =>
    rw [htype, hfield]
    exact isNone_of_complexValues hvalues
  | @collection _ _ fields? _ htype hfields hitems hshown =>
    rw [htype, hfields]
    cases fields? with
    | none => exact hshown.symm
    | some vs => exact isNone_of_collectionItems hitems
  | @unmappedItem _ item fields? htype hfields hitems =>
    rw [htype, hfields]
    have hnone := isNone_of_collectionItems hitems
    cases fields? with
    | none => simp at hnone
    | some vs => exact hnone
  | nullCollection htype hfields hhidden =>
    rw [htype, hfields, hhidden]
    rfl
  | entity htype =>
    rw [htype]
    rfl

theorem map_of_mapM_namedValue {depth : Nat} {a : Accessor α} {data : α} {ps : List Property}
    {values : List (Option NamedValue)}
    (h : ps.mapM (s.namedValue depth a data) = .ok values)
    : (values.filterMap id).map (fun v => (v.name, v.type))
        = (ps.filter fun p => !s.omits a data p).map fun p => (p.name, p.type) := by
  rw [mapM_eq_ok] at h
  induction h with
  | nil => rfl
  | @cons p v? ps values hv _ ih =>
    rw [List.filter_cons, ← isNone_of_namedValue hv]
    cases v? with
    | none =>
      rw [List.filterMap_cons_none rfl, ih]
      rfl
    | some v =>
      obtain ⟨content, rfl⟩ := shown_of_namedValue hv
      rw [List.filterMap_cons]
      dsimp
      rw [List.map_cons, ih]
      rfl

/-! ### Keys -/

end Snapshot

/-- The values of a key with the names of the properties that they are from. -/
def Key.parts (names : List String) : Key → List (String × Value)
  | .single v => names.map fun name => (name, v)
  | .composite parts => parts

def Entity.keyParts (en : Entity α) : List (String × Value) := en.key.parts en.type.keys

theorem Key.parts_of_create {names : List String} {values : List Value} {key : Key}
    (h : create names values = .ok key)
    : key.parts names = names.zip values
        ∧
      names.length = values.length
        ∧
      ∀ name v, (name, v) ∈ names.zip values → v.isNull = false := by
  unfold create at h
  split at h
  . cases h
  . next hcount =>
    rw [not_or, ne_eq, not_not] at hcount
    split at h
    . cases h
    . next hnull =>
      refine ⟨?_, hcount.2, ?_⟩
      . split at h
        . cases h
          obtain ⟨name, rfl⟩ := List.length_eq_one_iff.mp hcount.2
          rfl
        . cases h
          rfl
      . simpa using hnull

namespace Snapshot

variable {s : Snapshot α}

theorem simpleValue_of_keyValue {name set : String} {field : FieldValue α} {v : Value}
    (h : field.keyValue name set = .ok v) : field.simpleValue name = .ok v := by
  cases field with
  | null => cases h
  | simple w => exact h
  | enum member => exact h
  | record r => cases h

theorem parts_of_key {set : EntitySet} {a : Accessor α} {data : α} {k : Key}
    (h : key set a data = .ok k)
    : (k.parts set.type.keys).map (·.1) = set.type.keys
        ∧
      ∀ name v, (name, v) ∈ k.parts set.type.keys →
        v.isNull = false
          ∧
        ∃ field, a.get data name = .ok field ∧ field.simpleValue name = .ok v := by
  obtain ⟨values, hvalues, h⟩ := bind_eq_ok.mp h
  obtain ⟨hparts, hlength, hnull⟩ := Key.parts_of_create h
  rw [hparts]
  refine ⟨List.map_fst_zip (Nat.le_of_eq hlength), ?_⟩
  intro name v hmem
  refine ⟨hnull name v hmem, ?_⟩
  obtain ⟨field, hfield, hv⟩ :=
    bind_eq_ok.mp ((List.forall₂_iff_zip.mp (mapM_eq_ok.mp hvalues)).2 hmem)
  exact ⟨field, hfield, simpleValue_of_keyValue hv⟩

theorem namedValue_of_simple {depth : Nat} {a : Accessor α} {data : α} {p : Property}
    {field : FieldValue α} {v : Value} (htype : p.type.isSimple = true)
    (hfield : a.get data p.name = .ok field) (hv : field.simpleValue p.name = .ok v)
    (hnull : v.isNull = false)
    : s.namedValue depth a data p = .ok (some ⟨p.name, p.type, .simple v⟩) := by
  obtain ⟨t, ht⟩ := Option.isSome_iff_exists.mp htype
  rw [namedValue]
  dsimp
  split
  . rw [hfield, ok_bind, hv, ok_bind, hnull]
    rfl
  all_goals
    next hother =>
      rw [hother] at ht
      cases ht

theorem simpleValue_of_namedValue {depth : Nat} {a : Accessor α} {data : α} {p : Property}
    {v : NamedValue} {w : Value} (h : s.namedValue depth a data p = .ok (some v))
    (hcontent : v.content = .simple w)
    : v.name = p.name ∧ ∃ field,
        a.get data p.name = .ok field ∧ field.simpleValue p.name = .ok w := by
  cases projects_of_namedValue h with
  | simple htype hfield hv _ =>
    cases hcontent
    exact ⟨rfl, _, hfield, hv⟩
  | shownNull | complex | collection => cases hcontent

/-! ### Links -/

theorem isMany_of_link {a : Accessor α} {data : α} {selection : Selection} {n : Navigation}
    {l : Link α} (h : s.link a data selection n = .ok l)
    : l.isMany = n.multiplicity.isMany ∧ l.isInline = selection.isExpanded n.name := by
  cases leads_of_link h with
  | deferred hdeferred => exact ⟨rfl, hdeferred.symm⟩
  | many hexpanded hmany => exact ⟨hmany.symm, hexpanded.symm⟩
  | none hexpanded hone => exact ⟨hone.symm, hexpanded.symm⟩
  | single hexpanded hone => exact ⟨hone.symm, hexpanded.symm⟩

theorem exists_of_related {a : Accessor α} {data : α} {selection : Selection} {n : Navigation}
    {l : Link α} {other : Entity α} (h : s.link a data selection n = .ok l)
    (hother : other ∈ l.related)
    : selection.isExpanded l.name = true
        ∧
      ∃ set r, s.setOfShape r.shape = .ok set
        ∧ s.toEntity set r (selection.navigate l.name) = .ok other := by
  cases leads_of_link h with
  | deferred => cases hother
  | none => cases hother
  | many hexpanded _ _ hentities =>
    obtain ⟨r, _, hr⟩ := exists_of_mapM hentities hother
    obtain ⟨set, hset, hr⟩ := bind_eq_ok.mp hr
    exact ⟨hexpanded, set, r, hset, hr⟩
  | single hexpanded _ _ hen =>
    obtain rfl := List.mem_singleton.mp hother
    obtain ⟨set, hset, hen⟩ := bind_eq_ok.mp hen
    exact ⟨hexpanded, set, _, hset, hen⟩

end Snapshot

/-! ### Graphs of entities -/

/-- The entity is found from the first one along the links of the given names. -/
inductive Entity.At (root : Entity α) : Path → Entity α → Prop where
  | root : At root [] root
  | related {path : Path} {en other : Entity α} {l : Link α} (hen : At root path en)
      (hl : l ∈ en.links) (hother : other ∈ l.related) : At root (path ++ [l.name]) other

namespace Snapshot

open Edm.Path (Selects Expands)

/-- What is found at a path is what the selected and the expanded paths ask for. -/
structure Shaped (s : Snapshot α) (select expand : List Path) (path : Path) (en : Entity α) :
    Prop where
  values : ∃ r e, en.record? = some r ∧ s.entry en.set = .ok e ∧
    en.values.map (fun v => (v.name, v.type))
      = (en.type.properties.filter fun p =>
          Selects select path p.name ∧ s.omits e.accessor r.data p = false).map
        fun p => (p.name, p.type)
  links :
    en.links.map (fun l => (l.name, l.isMany))
      = (en.type.navigations.filter fun n => Selects select path n.name).map
        fun n => (n.name, n.multiplicity.isMany)
  inline : ∀ l ∈ en.links, l.isInline = true ↔ Expands expand (path ++ [l.name])
  keys : en.keyParts.map (·.1) = en.type.keys
  keyValues : ∀ name v, (name, v) ∈ en.keyParts → ∀ p ∈ en.type.properties,
    p.name = name → p.type.isSimple = true → Selects select path name →
      ⟨name, p.type, .simple v⟩ ∈ en.values
        ∧
      ∀ shown ∈ en.values, shown.name = name → ∀ w, shown.content = .simple w → w = v
  depth : path = [] ∨ Expands expand path

variable {s : Snapshot α} {set : EntitySet} {r : Record α} {select expand : List Path}

theorem set_of_toEntity {selection : Selection} {en : Entity α}
    (h : s.toEntity set r selection = .ok en) : ⟨en.set, en.type⟩ = set := by
  rw [toEntity_eq] at h
  obtain ⟨e, _, h⟩ := bind_eq_ok.mp h
  obtain ⟨key, _, h⟩ := bind_eq_ok.mp h
  obtain ⟨values, _, h⟩ := bind_eq_ok.mp h
  obtain ⟨links, _, h⟩ := bind_eq_ok.mp h
  obtain ⟨created, hcreated, h⟩ := bind_eq_ok.mp h
  rw [Entity.create_eq_ok hcreated, pure_eq_ok] at h
  subst h
  rfl

theorem shaped_of_toEntity {path : Path} {en : Entity α}
    (h : s.toEntity set r ⟨select, expand, path⟩ = .ok en)
    (hdepth : path = [] ∨ Expands expand path) : s.Shaped select expand path en := by
  have hset := set_of_toEntity h
  obtain ⟨e, values, he, hkey, hvalues, hshown, hlinks, htype, hrecord⟩ := exists_of_toEntity h
  obtain ⟨hkeys, hparts⟩ := parts_of_key hkey
  simp only [Selection.isSelected_eq_decide] at hvalues hlinks
  refine ⟨⟨r, e, hrecord, ?_, ?_⟩, ?_, ?_, ?_, ?_, hdepth⟩
  . rw [← he, ← hset]
  . rw [hshown, map_of_mapM_namedValue hvalues, htype, List.filter_filter]
    simp [Bool.and_comm]
  . rw [htype]
    refine map_eq_map_of_mapM ?_ hlinks
    intro n l hl
    rw [name_of_link hl, (isMany_of_link hl).1]
  . intro l hl
    obtain ⟨n, _, hn⟩ := exists_of_mapM hlinks hl
    rw [(isMany_of_link hn).2, name_of_link hn]
    exact Selection.isExpanded_iff
  . unfold Entity.keyParts
    rw [htype]
    exact hkeys
  . unfold Entity.keyParts
    rw [htype, hshown]
    rintro name v hpart p hp rfl hsimple hselected
    obtain ⟨hnull, field, hfield, hv⟩ := hparts _ v hpart
    constructor
    . have hfilter : p ∈ set.type.properties.filter fun p => Selects select path p.name :=
        List.mem_filter.mpr ⟨hp, decide_eq_true hselected⟩
      obtain ⟨v?, hmem, hv?⟩ := exists_of_forall₂ (mapM_eq_ok.mp hvalues) hfilter
      unfold project at hv?
      rw [namedValue_of_simple hsimple hfield hv hnull] at hv?
      cases hv?
      exact List.mem_filterMap.mpr ⟨_, hmem, rfl⟩
    . intro shown hmem hname w hw
      obtain ⟨_, hmem, rfl⟩ := List.mem_filterMap.mp hmem
      obtain ⟨q, _, hq⟩ := exists_of_mapM hvalues hmem
      obtain ⟨hqname, field', hfield', hw⟩ := simpleValue_of_namedValue hq hw
      rw [← hqname, hname, hfield] at hfield'
      cases hfield'
      rw [← hqname, hname, hv] at hw
      exact (Except.ok.inj hw).symm

theorem mem_sets_of_setOfShape {shape : Shape} (h : s.setOfShape shape = .ok set)
    : set ∈ s.model.sets := by
  unfold setOfShape at h
  split at h
  . cases h
  . unfold Model.entitySet Model.entitySet? at h
    split at h
    . next hfind =>
      cases h
      exact List.mem_of_find?_eq_some hfind
    . cases h

/-- Whatever is found at a path shows a record with the selection at that path. -/
theorem exists_of_at {root en : Entity α} {path : Path}
    (h : s.toEntity set r ⟨select, expand, []⟩ = .ok root) (hen : root.At path en)
    : (path = [] ∨ Expands expand path)
        ∧
      ∃ set' r',
        (set' = set ∨ set' ∈ s.model.sets)
          ∧
        s.toEntity set' r' ⟨select, expand, path⟩ = .ok en := by
  induction hen with
  | root => exact ⟨.inl rfl, set, r, .inl rfl, h⟩
  | related _ hl hother ih =>
    obtain ⟨_, set', r', _, hen⟩ := ih
    obtain ⟨e, _, _, _, _, _, hlinks, _, _⟩ := exists_of_toEntity hen
    obtain ⟨n, _, hn⟩ := exists_of_mapM hlinks hl
    obtain ⟨hexpanded, other, r'', hother, hen⟩ := exists_of_related hn hother
    refine ⟨.inr (Selection.isExpanded_iff.mp hexpanded), other, r'', .inr ?_, hen⟩
    exact mem_sets_of_setOfShape hother

theorem ne_entity_of_generate {registry : Registry α} {config : Config} {m : Model}
    (h : registry.generate config = .ok m) (hset : set ∈ m.sets) {p : Property}
    (hp : p ∈ set.type.properties) (t : EntityType) : p.type ≠ .entity t := by
  obtain ⟨made, hm⟩ := Registry.exists_isModelOf h
  obtain ⟨e, _, _, ht⟩ := exists_of_forall₂ hm.sets.flip hset
  obtain ⟨f, _, hf⟩ := (ht.entityTypeOf hm.complete).properties.exists_field hp
  obtain ⟨item, _, htype⟩ := hf.type
  rw [htype]
  split
  . exact nofun
  . exact nofun

/--
An entity shows, at every path of links that leads from it, exactly what the selected and the
expanded paths ask for, whatever the records refer to. Every entity is one of a set of the model, if
the first one is; the properties of a generated model can all be shown.
-/
theorem shaped_of_at {root : Entity α} (h : s.toEntity set r ⟨select, expand, []⟩ = .ok root)
    : (∀ path en, root.At path en →
        s.Shaped select expand path en
          ∧
        (⟨en.set, en.type⟩ = set ∨ ⟨en.set, en.type⟩ ∈ s.model.sets))
        ∧
      ∀ config,
        s.registry.generate config = .ok s.model →
        set ∈ s.model.sets →
          ∀ path en, root.At path en → ∀ p ∈ en.type.properties, ∀ t, p.type ≠ .entity t := by
  refine ⟨?_, ?_⟩
  . intro path en hen
    obtain ⟨hdepth, set', r', hset', hen⟩ := exists_of_at h hen
    rw [set_of_toEntity hen]
    exact ⟨shaped_of_toEntity hen hdepth, hset'⟩
  . intro config hgenerate hset path en hen p hp t
    obtain ⟨_, set', r', hset', hen⟩ := exists_of_at h hen
    have hmem : set' ∈ s.model.sets := by
      rcases hset' with rfl | hset'
      . exact hset
      . exact hset'
    rw [← set_of_toEntity hen] at hmem
    exact ne_entity_of_generate hgenerate hmem hp t

end Snapshot

/-! ### Partners of each other -/

namespace Partners

inductive Partner where
  | ada
  | bob

def Partner.name : Partner → String
  | .ada => "Ada"
  | .bob => "Bob"

def Partner.other : Partner → Partner
  | .ada => .bob
  | .bob => .ada

def Partner.nickname? : Partner → Option String
  | .ada => none
  | .bob => some "Bo"

def kind : Kind Partner Partner := ⟨"Partner", id, some, fun _ => rfl⟩

def shape : Shape := ⟨"partner"⟩

def entry : SetEntry Partner where
  name := "Partners"
  typeName := "Partner"
  shape := shape
  accessor := .typed kind .ada [
    (Member.simple "Name" .string .string (·.name) fun p _ => p).notNull,
    Member.simple "Nickname" .string Scalar.string.optional (·.nickname?) fun p _ => p,
    Member.record "Other" shape kind (fun p => some p.other) fun p _ => p]
  keys := ["Name"]
  records := []
  hooks? := none

def set : EntitySet where
  name := "Partners"
  type := {
    namespace_ := "InMemory"
    name := "Partner"
    keys := ["Name"]
    properties := [⟨"Name", .simple .string, false⟩, ⟨"Nickname", .simple .string, true⟩]
    navigations := [⟨"Other", .zeroOrOne, "Partner"⟩] }

def model : Model where
  namespace_ := "InMemory"
  containerName := "Container"
  sets := [set]
  complexTypes := []
  setNames_nodup := by decide
  typeNames_nodup := by decide
  complexNames_nodup := List.nodup_nil

def snapshot : Snapshot Partner where
  registry := { sets := [entry] }
  model
  config := { includeNullProperties := false }

def entity (p : Partner) (nickname : List NamedValue) (other : Target Partner)
    : Entity Partner where
  set := "Partners"
  type := set.type
  key := .single (.string p.name)
  values := ⟨"Name", .simple .string, .simple (.string p.name)⟩ :: nickname
  links := [⟨"Other", other⟩]
  record? := some ⟨shape, p⟩

def nickname : NamedValue := ⟨"Nickname", .simple .string, .simple (.string "Bo")⟩

def ada : Entity Partner :=
  entity .ada [] (.single (some (entity .bob [nickname] (.deferred false))))

theorem toEntity_eq
    : snapshot.toEntity set ⟨shape, .ada⟩ ⟨[["*"], ["Other"]], [["Other"]], []⟩ = .ok ada := by
  cbv

/-- Although the partners refer to each other without end, only one link is followed. -/
theorem depth_ada
    : snapshot.toEntity set ⟨shape, .ada⟩ ⟨[["*"], ["Other"]], [["Other"]], []⟩ = .ok ada
        ∧
      snapshot.Shaped [["*"], ["Other"]] [["Other"]] [] ada
        ∧
      ∀ path en, ada.At path en → path <+: ["Other"] := by
  obtain ⟨hshaped, _⟩ := Snapshot.shaped_of_at toEntity_eq
  refine ⟨toEntity_eq, (hshaped [] ada .root).1, ?_⟩
  intro path en hen
  rcases (hshaped path en hen).1.depth with rfl | ⟨expanded, hmem, hprefix⟩
  . exact List.nil_prefix
  . rwa [List.mem_singleton.mp hmem] at hprefix

end Partners

end Edm
