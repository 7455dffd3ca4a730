import Mathlib
import Edm.Accessor.Typed
import Edm.Proofs.Projection

/-!
This module contains the effect of leaving out null values: what is shown without them is what is
shown with them, less every null value at any depth.
-/

namespace Edm

variable {α : Type}

/-! ### Leaving out null values -/

mutual

def NamedValue.withoutNulls : NamedValue → NamedValue
  | ⟨name, type, content⟩ => ⟨name, type, content.withoutNulls⟩

def Content.withoutNulls : Content → Content
  | .simple v => .simple v
  | .complex values => .complex (optionalWithoutNulls values)
  | .collection type items => .collection type (itemsWithoutNulls items)

def optionalWithoutNulls : Option (List NamedValue) → Option (List NamedValue)
  | none => none
  | some values => some (valuesWithoutNulls values)

def Item.withoutNulls : Item → Item
  | .simple v => .simple v
  | .complex values => .complex (valuesWithoutNulls values)

/-- Leave out the values that are null, and within the others what is null there. -/
def valuesWithoutNulls : List NamedValue → List NamedValue
  | [] => []
  | v :: vs =>
    if v.isNull then valuesWithoutNulls vs else v.withoutNulls :: valuesWithoutNulls vs

def itemsWithoutNulls : List Item → List Item
  | [] => []
  | item :: items => item.withoutNulls :: itemsWithoutNulls items

end

mutual

/-- The entity without the null values of its properties and of those of inline entities. -/
def Entity.withoutNulls : Entity α → Entity α
  | ⟨set, type, key, values, links, record?⟩ =>
    ⟨set, type, key, valuesWithoutNulls values, linksWithoutNulls links, record?⟩

def Link.withoutNulls : Link α → Link α
  | ⟨name, target⟩ => ⟨name, target.withoutNulls⟩

def Target.withoutNulls : Target α → Target α
  | .deferred many => .deferred many
  | .single none => .single none
  | .single (some en) => .single (some en.withoutNulls)
  | .many entities => .many (entitiesWithoutNulls entities)

def linksWithoutNulls : List (Link α) → List (Link α)
  | [] => []
  | l :: links => l.withoutNulls :: linksWithoutNulls links

def entitiesWithoutNulls : List (Entity α) → List (Entity α)
  | [] => []
  | en :: entities => en.withoutNulls :: entitiesWithoutNulls entities

end

theorem valuesWithoutNulls_eq (values : List NamedValue)
    : valuesWithoutNulls values
        = (values.filter fun v => !v.isNull).map NamedValue.withoutNulls := by
  induction values with
  | nil => rfl
  | cons v values ih =>
    rw [valuesWithoutNulls, List.filter_cons, ih]
    cases v.isNull <;> rfl

theorem linksWithoutNulls_eq (links : List (Link α))
    : linksWithoutNulls links = links.map Link.withoutNulls := by
  induction links with
  | nil => rfl
  | cons l links ih => rw [linksWithoutNulls, ih, List.map_cons]

theorem entitiesWithoutNulls_eq (entities : List (Entity α))
    : entitiesWithoutNulls entities = entities.map Entity.withoutNulls := by
  induction entities with
  | nil => rfl
  | cons en entities ih => rw [entitiesWithoutNulls, ih, List.map_cons]

/-- The value without the null values in it, if it is not null itself. -/
def NamedValue.unlessNull (v : NamedValue) : Option NamedValue :=
  if v.isNull then none else some v.withoutNulls

theorem filterMap_unlessNull (values : List (Option NamedValue))
    : (values.map (·.bind NamedValue.unlessNull)).filterMap id
        = valuesWithoutNulls (values.filterMap id) := by
  induction values with
  | nil => rfl
  | cons v? values ih =>
    cases v? with
    | none => exact ih
    | some v =>
      rw [List.filterMap_cons, List.map_cons, List.filterMap_cons, ih]
      dsimp [NamedValue.unlessNull]
      rw [valuesWithoutNulls]
      cases v.isNull <;> rfl

/-! ### Collections that are not null -/

def Accessor.NoNullCollection (a : Accessor α) : Prop :=
  ∀ data name, a.getAll data name ≠ .ok none

def Registry.NoNullCollection (r : Registry α) : Prop :=
  (∀ e ∈ r.sets, e.accessor.NoNullCollection) ∧ ∀ e ∈ r.complexTypes, e.accessor.NoNullCollection

theorem Accessor.noNullCollection_typed {τ : Type} (k : Kind α τ) (empty : τ)
    (members : List (Member α τ)) : (Accessor.typed k empty members).NoNullCollection := by
  intro data name h
  obtain ⟨t, _, h⟩ := bind_eq_ok.mp h
  obtain ⟨slot, _, h⟩ := bind_eq_ok.mp h
  cases slot with
  | single => cases h
  | many => cases h

/-! ### Both settings -/

namespace Snapshot

/-- The same registrations and the same model, with null values shown or not. -/
def showingNulls (s : Snapshot α) (shown : Bool) : Snapshot α :=
  { s with config := { s.config with includeNullProperties := shown } }

variable {s : Snapshot α}

theorem showingNulls_registry (shown : Bool) : (s.showingNulls shown).registry = s.registry := rfl

theorem showingNulls_model (shown : Bool) : (s.showingNulls shown).model = s.model := rfl

theorem accessor_of_entry {set : String} {e : SetEntry α} (h : s.registry.NoNullCollection)
    (he : s.entry set = .ok e) : e.accessor.NoNullCollection := by
  unfold entry at he
  split at he
  . cases he
  . next hset =>
    cases he
    exact h.1 e (List.mem_of_find?_eq_some hset)

/-- Without null values, complex values up to a depth are the same less their null values. -/
def HidesInComplex (s : Snapshot α) (depth : Nat) : Prop :=
  ∀ r, (s.showingNulls false).complexValues depth r
    = Option.map valuesWithoutNulls <$> (s.showingNulls true).complexValues depth r

theorem HidesInComplex.collectionItem {depth : Nat} (h : s.HidesInComplex depth) (name : String)
    (type : ItemType) (v : FieldValue α)
    : (s.showingNulls false).collectionItem depth name type v
        = Option.map Item.withoutNulls
            <$> (s.showingNulls true).collectionItem depth name type v := by
  rw [Snapshot.collectionItem.eq_def, Snapshot.collectionItem.eq_def]
  split
  . next t =>
    cases v.simpleValue name <;> rfl
  . next t r =>
    rw [h r]
    cases (s.showingNulls true).complexValues depth r with
    | error failure => rfl
    | ok values? => cases values? <;> rfl
  . rfl
  . rfl

theorem HidesInComplex.collectionItems {depth : Nat} (h : s.HidesInComplex depth) (name : String)
    (type : ItemType) (vs : List (FieldValue α))
    : (s.showingNulls false).collectionItems depth name type vs
        = Option.map itemsWithoutNulls
            <$> (s.showingNulls true).collectionItems depth name type vs := by
  induction vs with
  | nil =>
    rw [Snapshot.collectionItems, Snapshot.collectionItems]
    rfl
  | cons v vs ih =>
    rw [Snapshot.collectionItems, Snapshot.collectionItems, h.collectionItem, ih]
    cases (s.showingNulls true).collectionItem depth name type v with
    | error failure => rfl
    | ok item? =>
      cases item? with
      | none => rfl
      | some item =>
        cases (s.showingNulls true).collectionItems depth name type vs with
        | error failure => rfl
        | ok items? => cases items? <;> rfl

theorem HidesInComplex.namedValue {depth : Nat} (h : s.HidesInComplex depth) {a : Accessor α}
    (ha : a.NoNullCollection) (data : α) (p : Property)
    : (s.showingNulls false).namedValue depth a data p
        = (·.bind NamedValue.unlessNull)
            <$> (s.showingNulls true).namedValue depth a data p := by
  rw [Snapshot.namedValue, Snapshot.namedValue]
  dsimp only
  split
  . cases a.get data p.name with
    | error failure => rfl
    | ok field =>
      simp only [ok_bind]
      cases field.simpleValue p.name with
      | error failure => rfl
      | ok v =>
        simp only [ok_bind]
        cases hnull : v.isNull with
        | true => simp [showsNull, showingNulls, NamedValue.unlessNull, NamedValue.isNull, hnull]
        | false =>
          simp [showsNull, showingNulls, NamedValue.unlessNull, NamedValue.isNull, hnull]
          rfl
  . cases a.get data p.name with
    | error failure => rfl
    | ok field =>
      cases field with
      | null => rfl
      | record r =>
        simp only [ok_bind]
        rw [h r]
        cases (s.showingNulls true).complexValues depth r with
        | error failure => rfl
        | ok values? => cases values? <;> rfl
      | simple v => rfl
      | enum member => rfl
  . cases hvs : a.getAll data p.name with
    | error failure => rfl
    | ok vs? =>
      cases vs? with
      | none => exact absurd hvs (ha data p.name)
      | some vs =>
        simp only [ok_bind, Option.isNone_some, Bool.false_and, Bool.false_eq_true, if_false,
          Option.getD_some]
        rw [h.collectionItems]
        cases (s.showingNulls true).collectionItems depth p.name _ vs with
        | error failure => rfl
        | ok items? => cases items? <;> rfl
  . rfl

theorem hidesInComplex (h : s.registry.NoNullCollection) (depth : Nat)
    : s.HidesInComplex depth := by
  induction depth with
  | zero =>
    intro r
    rw [complexValues, complexValues]
    rfl
  | succ depth ih =>
    intro r
    rw [complexValues, complexValues, showingNulls_registry, showingNulls_registry,
      showingNulls_model, showingNulls_model]
    cases he : s.registry.complexOfShape? r.shape with
    | none => rfl
    | some e =>
      dsimp only
      cases s.model.complexType? e.typeName with
      | none => rfl
      | some t =>
        have ha := h.2 e (List.mem_of_find?_eq_some he)
        dsimp only
        rw [map_mapM fun p (_ : p ∈ t.properties) => ih.namedValue ha r.data p]
        cases t.properties.mapM fun p =>
          (s.showingNulls true).namedValue depth e.accessor r.data p with
        | error failure => rfl
        | ok values =>
          exact congrArg (fun values => Except.ok (some values)) (filterMap_unlessNull values)

/-! ### Entities -/

theorem create_withoutNulls (set : EntitySet) (key : Key) (values : List NamedValue)
    (links : List (Link α))
    : Entity.create set key (valuesWithoutNulls values) (linksWithoutNulls links)
        = Entity.withoutNulls <$> Entity.create set key values links := by
  unfold Entity.create
  dsimp only
  split
  . rfl
  . split <;> rfl

theorem link_withoutNulls {a : Accessor α} {data : α} {selection : Selection} {n : Navigation}
    (h : selection.isExpanded n.name = true → ∀ other,
      (s.showingNulls false).expand selection n other
        = Entity.withoutNulls <$> (s.showingNulls true).expand selection n other)
    : (s.showingNulls false).link a data selection n
        = Link.withoutNulls <$> (s.showingNulls true).link a data selection n := by
  unfold link
  split
  . next hexpanded =>
    cases a.related data n with
    | error failure => rfl
    | ok records =>
      simp only [ok_bind]
      split
      . rw [map_mapM fun other (_ : other ∈ records) => h hexpanded other]
        cases hentities : records.mapM ((s.showingNulls true).expand selection n) with
        | error failure => rfl
        | ok entities =>
          exact congrArg (fun entities => Except.ok (Link.mk n.name (.many entities)))
            (entitiesWithoutNulls_eq entities).symm
      . split
        . rfl
        . next other _ =>
          rw [h hexpanded other]
          cases (s.showingNulls true).expand selection n other <;> rfl
  . rfl

theorem toEntity_showingNulls (h : s.registry.NoNullCollection) (set : EntitySet) (r : Record α)
    (selection : Selection)
    : (s.showingNulls false).toEntity set r selection
        = Entity.withoutNulls <$> (s.showingNulls true).toEntity set r selection := by
  have hlink : ∀ a data, ∀ n, (s.showingNulls false).link a data selection n
      = Link.withoutNulls <$> (s.showingNulls true).link a data selection n := by
    intro a data n
    apply link_withoutNulls
    intro hexpanded other
    unfold expand
    change s.setOfShape other.shape >>= _ = _ <$> (s.setOfShape other.shape >>= _)
    cases s.setOfShape other.shape with
    | error failure => rfl
    | ok target => exact toEntity_showingNulls h target other (selection.navigate n.name)
  rw [toEntity_eq, toEntity_eq]
  change s.entry set.name >>= _ = _ <$> (s.entry set.name >>= _)
  cases he : s.entry set.name with
  | error failure => rfl
  | ok e =>
    have ha := accessor_of_entry h he
    rw [ok_bind, ok_bind]
    cases key set e.accessor r.data with
    | error failure => rfl
    | ok key =>
      rw [ok_bind, ok_bind]
      unfold project
      rw [map_mapM fun p _ => (hidesInComplex h nestingLimit).namedValue ha r.data p,
        map_mapM fun n _ => hlink e.accessor r.data n]
      cases (set.type.properties.filter fun p => selection.isSelected p.name).mapM
        ((s.showingNulls true).namedValue nestingLimit e.accessor r.data) with
      | error failure => rfl
      | ok values =>
        rw [map_ok, ok_bind, ok_bind]
        cases (set.type.navigations.filter fun n => selection.isSelected n.name).mapM
          ((s.showingNulls true).link e.accessor r.data selection) with
        | error failure => rfl
        | ok links =>
          rw [map_ok, ok_bind, ok_bind, filterMap_unlessNull, ← linksWithoutNulls_eq,
            create_withoutNulls]
          cases Entity.create set key (values.filterMap id) links with
          | error failure => rfl
          | ok en =>
            cases en
            rfl
termination_by selection.remaining
decreasing_by exact Selection.remaining_navigate_lt (by assumption)

/--
An entity is shown without null values exactly if it is shown with them, and what is left out are
the null values, at every depth.
-/
theorem toEntity_withoutNulls (h : s.registry.NoNullCollection) (set : EntitySet) (r : Record α)
    (selection : Selection)
    : ((∃ en, (s.showingNulls false).toEntity set r selection = .ok en)
        ↔ ∃ en, (s.showingNulls true).toEntity set r selection = .ok en)
        ∧
      ∀ en, (s.showingNulls true).toEntity set r selection = .ok en →
        (s.showingNulls false).toEntity set r selection = .ok en.withoutNulls
          ∧
        en.withoutNulls.key = en.key
          ∧
        en.withoutNulls.values
          = (en.values.filter fun v => !v.isNull).map NamedValue.withoutNulls
          ∧
        en.withoutNulls.links = en.links.map Link.withoutNulls := by
  rw [toEntity_showingNulls h]
  refine ⟨?_, ?_⟩
  . cases (s.showingNulls true).toEntity set r selection with
    | error failure => simp
    | ok en => simp
  . intro en hen
    refine ⟨by rw [hen, map_ok], ?_⟩
    obtain ⟨_, _, _, values, links, _⟩ := en
    exact ⟨rfl, valuesWithoutNulls_eq values, linksWithoutNulls_eq links⟩

end Snapshot

/-! ### Trees of notes -/

namespace Notes

structure Note where
  name : String
  label? : Option String := none
  parts : List Note := []
  next? : Option Note := none

def kind : Kind Note Note := ⟨"Note", id, some, fun _ => rfl⟩

def noteShape : Shape := ⟨"note"⟩

def partShape : Shape := ⟨"part"⟩

def members : List (Member Note Note) := [
  Member.simple "Name" .string .string (·.name) fun n name => { n with name },
  Member.simple "Label" .string Scalar.string.optional (·.label?)
    fun n label? => { n with label? },
  Member.records "Parts" partShape kind (·.parts) fun n parts => { n with parts }]

def next : Member Note Note :=
  Member.record "Next" noteShape kind (·.next?) fun n next? => { n with next? }

def registry : Registry Note where
  sets := [⟨"Notes", "Note", noteShape, .typed kind ⟨"", none, [], none⟩ (members ++ [next]),
    ["Name"], [], none⟩]
  complexTypes := [⟨"Part", partShape, .typed kind ⟨"", none, [], none⟩ (members.take 2), none⟩]

def partType : ComplexType where
  namespace_ := "InMemory"
  name := "Part"
  properties := [⟨"Name", .simple .string, true⟩, ⟨"Label", .simple .string, true⟩]

def set : EntitySet where
  name := "Notes"
  type := {
    namespace_ := "InMemory"
    name := "Note"
    keys := ["Name"]
    properties := partType.properties ++
      [⟨"Parts", .collection .list (.complex partType), true⟩]
    navigations := [⟨"Next", .zeroOrOne, "Note"⟩] }

def model : Model where
  namespace_ := "InMemory"
  containerName := "Container"
  sets := [set]
  complexTypes := [partType]
  setNames_nodup := by decide
  typeNames_nodup := by decide
  complexNames_nodup := by decide

def snapshot : Snapshot Note := ⟨registry, model, {}⟩

theorem noNullCollection : snapshot.registry.NoNullCollection := by
  refine ⟨?_, ?_⟩
  . intro e he
    obtain rfl := List.mem_singleton.mp he
    exact Accessor.noNullCollection_typed _ _ _
  . intro e he
    obtain rfl := List.mem_singleton.mp he
    exact Accessor.noNullCollection_typed _ _ _

def last : Note := { name := "last" }

def first : Note :=
  { name := "first", label? := some "a", parts := [last, { last with label? := some "b" }],
    next? := last }

def nameOf (name : String) : NamedValue := ⟨"Name", .simple .string, .simple (.string name)⟩

def label (v : Value) : NamedValue := ⟨"Label", .simple .string, .simple v⟩

def parts (items : List (List NamedValue)) : NamedValue :=
  ⟨"Parts", .collection .list (.complex partType),
    .collection (.complex partType) (items.map .complex)⟩

def entity (n : Note) (values : List NamedValue) (next : Target Note) : Entity Note :=
  ⟨"Notes", set.type, .single (.string n.name), values, [⟨"Next", next⟩], some ⟨noteShape, n⟩⟩

theorem toEntity_eq
    : (snapshot.showingNulls true).toEntity set ⟨noteShape, first⟩ (.expandAll [["Next"]])
        = .ok (entity first
            [nameOf "first", label (.string "a"),
              parts [[nameOf "last", label .null], [nameOf "last", label (.string "b")]]]
            (.single (entity last [nameOf "last", label .null, parts []] (.deferred false)))) := by
  cbv

/-- Null labels are left out of the parts and of the next note too. -/
theorem toEntity_first
    : (snapshot.showingNulls false).toEntity set ⟨noteShape, first⟩ (.expandAll [["Next"]])
        = .ok (entity first
            [nameOf "first", label (.string "a"),
              parts [[nameOf "last"], [nameOf "last", label (.string "b")]]]
            (.single (entity last [nameOf "last", parts []] (.deferred false)))) :=
  ((Snapshot.toEntity_withoutNulls noNullCollection set _ _).2 _ toEntity_eq).1

end Notes

end Edm
