import Edm.Proofs.Freshness
import Edm.Proofs.Making
import Edm.Proofs.Paging

/-!
This module contains the laws of following properties. What is found by following a navigation is
what the entity carries if the navigation is expanded, with the same choice below it.
-/

namespace Edm

variable {α : Type}

namespace Selection

/-- A choice makes below a navigation the choice that another one makes from the start. -/
structure Below (name : String) (deep shallow : Selection) : Prop where
  select : ∀ path, path ∈ deep.select ↔ ∃ rest ∈ shallow.select, name :: rest = path
  expand : ∀ path, path ∈ deep.expand ↔ path = [name] ∨ ∃ rest ∈ shallow.expand, name :: rest = path
  current : deep.current = name :: shallow.current

variable {name : String} {deep shallow : Selection}

theorem Below.navigate (h : Below name deep shallow) (next : String)
    : Below name (deep.navigate next) (shallow.navigate next) := by
  refine ⟨h.select, h.expand, ?_⟩
  unfold Selection.navigate
  rw [h.current, List.cons_append]

theorem isStarFor_cons {path candidate : Path} (hcandidate : candidate ≠ [])
    : isStarFor (name :: path) (name :: candidate) = isStarFor path candidate := by
  cases path with
  | nil =>
    cases candidate with
    | nil => contradiction
    | cons c candidate => rfl
  | cons p path => simp [isStarFor]

theorem Below.isSelected (h : Below name deep shallow) (property : String)
    : deep.isSelected property = shallow.isSelected property := by
  have hempty : deep.select.isEmpty = shallow.select.isEmpty := by
    rw [Bool.eq_iff_iff, List.isEmpty_iff, List.isEmpty_iff, List.eq_nil_iff_forall_not_mem,
      List.eq_nil_iff_forall_not_mem]
    constructor
    . intro hdeep rest hrest
      exact hdeep (name :: rest) ((h.select _).mpr ⟨rest, hrest, rfl⟩)
    . intro hshallow path hpath
      obtain ⟨rest, hrest, _⟩ := (h.select path).mp hpath
      exact hshallow rest hrest
  have hpath : ∀ rest,
      ((deep.current ++ [property]).isPrefixOf (name :: rest)
          || (name :: rest).isPrefixOf (deep.current ++ [property])
          || isStarFor (name :: rest) (deep.current ++ [property]))
        = ((shallow.current ++ [property]).isPrefixOf rest
          || rest.isPrefixOf (shallow.current ++ [property])
          || isStarFor rest (shallow.current ++ [property])) := by
    intro rest
    rw [h.current, List.cons_append, isStarFor_cons (by simp)]
    simp [List.isPrefixOf]
  unfold Selection.isSelected
  dsimp
  rw [hempty]
  congr 1
  rw [Bool.eq_iff_iff, List.any_eq_true, List.any_eq_true]
  constructor
  . rintro ⟨path, hmem, hruns⟩
    obtain ⟨rest, hrest, rfl⟩ := (h.select path).mp hmem
    exact ⟨rest, hrest, hpath rest ▸ hruns⟩
  . rintro ⟨rest, hrest, hruns⟩
    exact ⟨name :: rest, (h.select _).mpr ⟨rest, hrest, rfl⟩, (hpath rest).symm ▸ hruns⟩

theorem Below.isExpanded (h : Below name deep shallow) (navigation : String)
    : deep.isExpanded navigation = shallow.isExpanded navigation := by
  have hpath : ∀ rest, (deep.current ++ [navigation]).isPrefixOf (name :: rest)
      = (shallow.current ++ [navigation]).isPrefixOf rest := by
    intro rest
    rw [h.current, List.cons_append]
    simp [List.isPrefixOf]
  unfold Selection.isExpanded
  rw [Bool.eq_iff_iff, List.any_eq_true, List.any_eq_true]
  constructor
  . rintro ⟨path, hmem, hruns⟩
    rcases (h.expand path).mp hmem with rfl | ⟨rest, hrest, rfl⟩
    . -- The path that ends at the far end runs through nothing below it.
      rw [hpath] at hruns
      have := (List.isPrefixOf_iff_prefix.mp hruns).length_le
      simp at this
    . exact ⟨rest, hrest, hpath rest ▸ hruns⟩
  . rintro ⟨rest, hrest, hruns⟩
    exact ⟨name :: rest, (h.expand _).mpr (.inr ⟨rest, hrest, rfl⟩), (hpath rest).symm ▸ hruns⟩

theorem Below.isSelected_self {selection : Selection}
    (h : (selection.navigate name).Below name shallow) (hstart : shallow.current = [])
    : selection.isSelected name = true := by
  have hcurrent : selection.current ++ [name] = [name] := by
    have := h.current
    rwa [hstart] at this
  unfold Selection.isSelected
  rw [hcurrent]
  dsimp
  rw [Bool.or_eq_true, List.isEmpty_iff, List.any_eq_true]
  cases hselect : selection.select with
  | nil => exact .inl rfl
  | cons path paths =>
    obtain ⟨rest, _, rfl⟩ := (h.select path).mp (by simp [Selection.navigate, hselect])
    exact .inr ⟨name :: rest, by simp, by simp [List.isPrefixOf]⟩

theorem Below.isExpanded_self {selection : Selection}
    (h : (selection.navigate name).Below name shallow) (hstart : shallow.current = [])
    : selection.isExpanded name = true := by
  have hcurrent : selection.current ++ [name] = [name] := by
    have := h.current
    rwa [hstart] at this
  unfold Selection.isExpanded
  rw [hcurrent, List.any_eq_true]
  exact ⟨[name], (h.expand _).mpr (.inl rfl), by simp⟩

end Selection

namespace Registry

/-- The records at the far ends of navigations have the shape that the fields declare. -/
def RelatedAsDeclared (r : Registry α) : Prop :=
  ∀ e ∈ r.sets, ∀ own ∈ e.records, ∀ f ∈ e.accessor.fields, ∀ shape n others,
    f.type = .record shape → r.navigation? f = some n →
      e.accessor.related own.data n = .ok others → ∀ other ∈ others, other.shape = shape

end Registry

/-- What is found by following a link, if the entities are shown. -/
def Target.followed? : Target α → Option (Followed α)
  | .deferred _ => none
  | .single entity => some (.entity entity)
  | .many entities => some (.entities entities)

namespace Snapshot

theorem toEntity_below {name : String} {deep shallow : Selection} (s : Snapshot α)
    (set : EntitySet) (r : Record α) (h : deep.Below name shallow)
    : s.toEntity set r deep = s.toEntity set r shallow := by
  -- The induction is on the paths that are longer than where the navigation has got to.
  have hlink : ∀ a : Accessor α, s.link a r.data deep = s.link a r.data shallow := by
    intro a
    funext n
    apply link_congr (h.isExpanded n.name)
    intro hdeep other
    have hexpanded : shallow.isExpanded n.name = true := h.isExpanded n.name ▸ hdeep
    unfold expand
    congr 1
    funext set
    exact toEntity_below s set other (h.navigate n.name)
  rw [toEntity_eq, toEntity_eq]
  simp only [h.isSelected, hlink]
termination_by shallow.remaining
decreasing_by exact Selection.remaining_navigate_lt (by assumption)

/-! ### Navigations -/

theorem length_related_le {a : Accessor α} {data : α} {n : Navigation} {others : List (Record α)}
    (h : a.related data n = .ok others) (hone : n.multiplicity.isMany = false)
    : others.length ≤ 1 := by
  unfold Accessor.related at h
  rw [hone] at h
  obtain ⟨values, hvalues, h⟩ := bind_eq_ok.mp h
  obtain ⟨v, _, rfl⟩ := map_eq_ok.mp hvalues
  obtain ⟨records, hrecords, h⟩ := bind_eq_ok.mp h
  cases h
  have hlength := (mapM_eq_ok.mp hrecords).length_eq
  have := List.length_filterMap_le id records
  rw [List.length_singleton] at hlength
  omega

theorem followed_of_link {s : Snapshot α} {a : Accessor α} {data : α} {n : Navigation} {l : Link α}
    {target : EntitySet} {deep shallow : Selection} (hexpanded : deep.isExpanded n.name = true)
    (hexpand : ∀ others, a.related data n = .ok others →
      ∀ other ∈ others, s.expand deep n other = s.toEntity target other shallow)
    (hl : s.link a data deep n = .ok l)
    : ∃ others entities,
        a.related data n = .ok others
          ∧
        others.mapM (fun other => s.toEntity target other shallow) = .ok entities
          ∧
        l.target.followed?
          = some (if n.multiplicity.isMany then .entities entities
            else .entity entities.head?) := by
  unfold link at hl
  rw [if_pos hexpanded] at hl
  obtain ⟨others, hothers, hl⟩ := bind_eq_ok.mp hl
  have hmapM := mapM_congr (hexpand others hothers)
  cases hmany : n.multiplicity.isMany with
  | true =>
    rw [hmany, if_pos rfl] at hl
    obtain ⟨entities, hentities, hl⟩ := bind_eq_ok.mp hl
    cases hl
    exact ⟨others, entities, hothers, hmapM ▸ hentities, rfl⟩
  | false =>
    have hlength := length_related_le hothers hmany
    rw [hmany, if_neg (by simp)] at hl
    cases others with
    | nil =>
      cases hl
      exact ⟨[], [], hothers, rfl, rfl⟩
    | cons other others =>
      -- There is no second record that only one of the ways would have to show.
      obtain rfl : others = [] := by
        rw [List.length_cons] at hlength
        exact List.length_eq_zero_iff.mp (by omega)
      obtain ⟨en, hen, hl⟩ := bind_eq_ok.mp hl
      cases hl
      refine ⟨[other], [en], hothers, ?_, rfl⟩
      rw [← hmapM, List.mapM_cons, hen]
      rfl

theorem exists_of_findRecord {set : EntitySet} {a : Accessor α} {wanted : Key}
    {rs : List (Record α)} {r : Record α} (h : findRecord set a wanted rs = .ok r)
    : r ∈ rs ∧ ∃ own, key set a r.data = .ok own ∧ own.isMatch wanted = true := by
  induction rs with
  | nil => cases h
  | cons r' rs ih =>
    unfold findRecord at h
    obtain ⟨own, hown, h⟩ := bind_eq_ok.mp h
    split at h
    . next hmatch =>
      cases h
      exact ⟨List.mem_cons_self, own, hown, hmatch⟩
    . obtain ⟨hmem, hfound⟩ := ih h
      exact ⟨List.mem_cons_of_mem r' hmem, hfound⟩

theorem find_eq_ok_of_generate {s : Snapshot α} {name : String} {set : EntitySet} {e : SetEntry α}
    (hgenerate : s.registry.generate s.config = .ok s.model) (h : s.find name = .ok (set, e))
    : e ∈ s.registry.sets ∧ s.registry.EntityTypeOf e set.type := by
  obtain ⟨hname, hset, he⟩ := find_eq_ok h
  unfold entry at he
  split at he
  . cases he
  . next hset? =>
    cases he
    obtain ⟨hmem, rfl⟩ := Registry.mem_of_set? hset?
    obtain ⟨t, ht, _, hof⟩ := Registry.exists_entitySet hgenerate hmem
    rw [ht] at hset
    cases hset
    exact ⟨hmem, hof⟩

theorem exists_of_entity {s : Snapshot α} {name : String} {wanted : Key} {q : Query} {en : Entity α}
    (hgenerate : s.registry.generate s.config = .ok s.model) (h : s.entity name wanted q = .ok en)
    : ∃ set e r values,
        s.find name = .ok (set, e)
          ∧
        findRecord set e.accessor wanted e.records = .ok r
          ∧
        e ∈ s.registry.sets
          ∧
        s.registry.EntityTypeOf e set.type
          ∧
        (set.type.properties.filter fun p => q.selection.isSelected p.name).mapM
          (s.project e.accessor r.data) = .ok values
          ∧
        en.values = values.filterMap id
          ∧
        (set.type.navigations.filter fun n => q.selection.isSelected n.name).mapM
          (s.link e.accessor r.data q.selection) = .ok en.links
          ∧
        en.type = set.type := by
  obtain ⟨⟨set, e⟩, hfind, h⟩ := bind_eq_ok.mp h
  obtain ⟨r, hr, hen⟩ := bind_eq_ok.mp h
  obtain ⟨he, hof⟩ := find_eq_ok_of_generate hgenerate hfind
  obtain ⟨hname, _, hentry⟩ := find_eq_ok hfind
  obtain ⟨e', values, he', _, hvalues, henvalues, hlinks, htype, _⟩ := exists_of_toEntity hen
  obtain rfl : e = e' := by
    rw [hname, hentry] at he'
    exact Except.ok.inj he'
  exact ⟨set, e, r, values, hfind, hr, he, hof, hvalues, henvalues, hlinks, htype⟩

theorem exists_target {s : Snapshot α} {shape : Shape} {e : SetEntry α}
    (hgenerate : s.registry.generate s.config = .ok s.model)
    (he : s.registry.setOfShape? shape = some e)
    : ∃ target,
        s.model.entitySetOfType? e.typeName = some target ∧ s.setOfShape shape = .ok target := by
  obtain ⟨t, hname, htype, _⟩ :=
    Registry.exists_entitySet hgenerate (Registry.mem_of_setOfShape? he).1
  refine ⟨_, htype, ?_⟩
  unfold setOfShape
  rw [he]
  exact hname

section

variable {s : Snapshot α} {set name : String} {wanted : Key} {q q' : Query} {en : Entity α}

theorem follow_navigation {n : Navigation}
    (hgenerate : s.registry.generate s.config = .ok s.model)
    (hfields : s.registry.FieldsDistinct) (hrelated : s.registry.RelatedAsDeclared)
    (hbelow : (q.selection.navigate name).Below name q'.selection)
    (h : s.entity set wanted q = .ok en) (hn : en.type.navigation? name = some n)
    : ∃ l answer,
        en.link? name = some l
          ∧
        l.target.followed? = some answer
          ∧
        s.follow set wanted name q' = .ok answer := by
  obtain ⟨set, e, r, _, hfind, hr, he, hof, _, _, hlinks, htype⟩ := exists_of_entity hgenerate h
  rw [htype] at hn
  have hmem : n ∈ set.type.navigations := List.mem_of_find?_eq_some hn
  obtain rfl : n.name = name := by simpa using List.find?_some hn
  -- The navigation comes from a field, whose shape leads to the set of the far end.
  rw [hof.navigations] at hmem
  obtain ⟨f, hf, hfn⟩ := List.mem_filterMap.mp hmem
  obtain ⟨shape, target, hshape, htarget, _, _, htargetname⟩ := Registry.exists_of_navigation? hfn
  obtain ⟨targetSet, hbytype, hbyshape⟩ := exists_target hgenerate htarget
  have hexpand : ∀ others, e.accessor.related r.data n = .ok others → ∀ other ∈ others,
      s.expand q.selection n other = s.toEntity targetSet other q'.selection := by
    intro others hothers other hother
    unfold expand
    have hown := (exists_of_findRecord hr).1
    rw [hrelated e he r hown f hf shape n others hshape hfn hothers other hother, hbyshape, ok_bind]
    exact toEntity_below s targetSet other hbelow
  -- Whatever is selected, the link is shown, since a selected path below it runs through it.
  have hselected : n ∈ set.type.navigations.filter fun n => q.selection.isSelected n.name := by
    rw [List.mem_filter, hof.navigations]
    exact ⟨hmem, hbelow.isSelected_self rfl⟩
  have hnodup : ((set.type.navigations.filter fun n => q.selection.isSelected n.name).map
      (·.name)).Nodup := by
    rw [hof.navigations]
    exact (hfields e he).sublist ((List.filter_sublist.map _).trans Registry.names_of_navigations)
  obtain ⟨l, hnl, hfound⟩ := link?_of_mapM hnodup hlinks hselected
  obtain ⟨others, entities, hothers, hentities, hfollowed⟩ :=
    followed_of_link (hbelow.isExpanded_self rfl) hexpand hnl
  refine ⟨l, _, hfound, hfollowed, ?_⟩
  unfold follow
  rw [hfind, ok_bind]
  dsimp
  rw [hr, ok_bind, hn]
  dsimp
  rw [htargetname, hbytype]
  dsimp
  rw [hothers, ok_bind, hentities, ok_bind]
  rfl

theorem navigation?_eq_none {r : Registry α} {e : SetEntry α} {t : EntityType} {p : Property}
    (hof : r.EntityTypeOf e t) (hnodup : (e.accessor.fields.map (·.name)).Nodup)
    (hp : p ∈ t.properties) : t.navigation? p.name = none := by
  unfold EntityType.navigation?
  rw [List.find?_eq_none]
  intro n hn hname
  exact hof.ne_of_mem hnodup hp hn (beq_iff_eq.mp hname).symm

theorem follow_property {p : Property} (hgenerate : s.registry.generate s.config = .ok s.model)
    (hfields : s.registry.FieldsDistinct) (hselect : q.select = [])
    (h : s.entity set wanted q = .ok en) (hp : en.type.property? name = some p)
    (hsimple : p.type.isSimple = true)
    : s.follow set wanted name q'
        = .ok (.value ((en.value? name).getD ⟨name, p.type, .simple .null⟩)) := by
  obtain ⟨set, e, r, values, hfind, hr, he, hof, hvalues, henvalues, _, htype⟩ :=
    exists_of_entity hgenerate h
  rw [htype] at hp
  have hmem : p ∈ set.type.properties := List.mem_of_find?_eq_some hp
  obtain rfl : p.name = name := by simpa using List.find?_some hp
  have hall : set.type.properties.filter (fun p => q.selection.isSelected p.name)
      = set.type.properties := by
    rw [List.filter_eq_self]
    intro p' _
    simp [Selection.isSelected, Query.selection, hselect]
  rw [hall] at hvalues
  have hnodup : (set.type.properties.map (·.name)).Nodup :=
    (hfields e he).sublist hof.properties.filter.names
  obtain ⟨shown, hshown, hfound⟩ := find?_of_namedValue hnodup hvalues hmem
  unfold follow
  rw [hfind, ok_bind]
  dsimp
  rw [hr, ok_bind, navigation?_eq_none hof (hfields e he) hmem]
  dsimp
  rw [hp]
  dsimp
  unfold project Entity.value?
  rw [hsimple, hshown, henvalues, hfound]
  rfl

end

end Snapshot

namespace Service

theorem Fresh.generate_eq {s : Service α} (hs : s.Fresh) {current : Snapshot α}
    (h : (snapshot.run.run s).1 = .ok current)
    : current.registry = s.registry
        ∧
      current.registry.generate current.config = .ok current.model := by
  rw [snapshot_run] at h
  have hmodel := hs.holds.getOrBuild_model
  cases hnumbered : (s.cache.getOrBuild (s.registry.generate s.config)).1 with
  | error failure =>
    rw [hnumbered] at h
    cases h
  | ok numbered =>
    rw [hnumbered] at h hmodel
    cases h
    exact ⟨rfl, hmodel.symm⟩

theorem exists_of_ask {β : Type} {request : Snapshot α → Except Failure β} {s : Service α}
    {answer : β} (h : ((ask request).run.run s).1 = .ok answer)
    : ∃ current, (snapshot.run.run s).1 = .ok current ∧ request current = .ok answer := by
  rw [ask_run] at h
  exact bind_eq_ok.mp h

theorem ask_of_snapshot {β : Type} {request : Snapshot α → Except Failure β} {s : Service α}
    {current : Snapshot α} (h : (snapshot.run.run s).1 = .ok current)
    : ((ask request).run.run s).1 = request current := by
  rw [ask_run, h]
  rfl

/--
Following a property gives what the entity shows of it. A navigation gives the entities that are
carried if it is expanded, and the paths that are selected and expanded below it are the ones of the
request that follows it. A simple property gives its value, which is null if it is not shown.
-/
theorem follow_eq_shown {config : Config} {calls : List (Call α)}
    (hfields : (after config calls).registry.FieldsDistinct)
    (hrelated : (after config calls).registry.RelatedAsDeclared) (set name : String) (key : Key)
    (q q' : Query) (en : Entity α)
    (h : ((entity set key q).run.run (after config calls)).1 = .ok en)
    : (∀ n,
        en.type.navigation? name = some n →
        (∀ path, path ∈ q.select ↔ ∃ rest ∈ q'.select, name :: rest = path) →
        (∀ path, path ∈ q.expand ↔ path = [name] ∨ ∃ rest ∈ q'.expand, name :: rest = path) →
          ∃ l answer,
            en.link? name = some l
              ∧
            l.target.followed? = some answer
              ∧
            ((follow set key name q').run.run (after config calls)).1 = .ok answer)
        ∧
      ∀ p,
        en.type.property? name = some p →
        p.type.isSimple = true →
        q.select = [] →
          ((follow set key name q').run.run (after config calls)).1
            = .ok (.value ((en.value? name).getD ⟨name, p.type, .simple .null⟩)) := by
  obtain ⟨current, hcurrent, hen⟩ := exists_of_ask h
  obtain ⟨hregistry, hgenerate⟩ := (fresh_after config calls).generate_eq hcurrent
  rw [← hregistry] at hfields hrelated
  have hfollow : ((follow set key name q').run.run (after config calls)).1
      = current.follow set key name q' := ask_of_snapshot hcurrent
  rw [hfollow]
  constructor
  . intro n hn hselect hexpand
    exact Snapshot.follow_navigation hgenerate hfields hrelated ⟨hselect, hexpand, rfl⟩ hen hn
  . intro p hp hsimple hselect
    exact Snapshot.follow_property hgenerate hfields hselect hen hp hsimple

end Service

/-! ### People and their children -/

namespace Family

structure Person where
  name : String
  children : List Person

def kind : Kind Person Person := ⟨"Person", id, some, fun _ => rfl⟩

def shape : Shape := ⟨"person"⟩

def cyd : Person := ⟨"Cyd", [⟨"Dan", []⟩]⟩

def ada : Person := ⟨"Ada", [⟨"Bob", []⟩, cyd]⟩

def entry : SetEntry Person where
  name := "People"
  typeName := "Person"
  shape := shape
  accessor := .typed kind ⟨"", []⟩ [
    (Member.simple "Name" .string .string (·.name) fun p name => { p with name }).notNull,
    Member.records "Children" shape kind (·.children) fun p children => { p with children }]
  keys := ["Name"]
  records := [⟨shape, ada⟩]
  hooks? := none

def config : Config := { enumsAsStrings := false }

def calls : List (Call Person) := [.registerSet entry]

def type : EntityType where
  namespace_ := "InMemory"
  name := "Person"
  keys := ["Name"]
  properties := [⟨"Name", .simple .string, false⟩]
  navigations := [⟨"Children", .many, "Person"⟩]

def entity (p : Person) (links : List (Link Person)) : Entity Person where
  set := "People"
  type
  key := .single (.string p.name)
  values := [⟨"Name", .simple .string, .simple (.string p.name)⟩]
  links
  record? := some ⟨shape, p⟩

theorem registry_eq : (Service.after config calls).registry = { sets := [entry] } := by rfl

theorem fieldsDistinct : (Service.after config calls).registry.FieldsDistinct := by
  intro e he
  rw [registry_eq, List.mem_singleton] at he
  subst he
  decide

theorem relatedAsDeclared : (Service.after config calls).registry.RelatedAsDeclared := by
  intro e he own hown f hf s n others hs hn hothers other hother
  rw [registry_eq, List.mem_singleton] at he
  subst he
  obtain rfl : own = ⟨shape, ada⟩ := by simpa [entry] using hown
  obtain rfl : f = ⟨"Children", .record shape, true, true⟩ := by
    simp only [entry, Accessor.typed, List.map_cons, List.map_nil, List.mem_cons,
      List.not_mem_nil, or_false] at hf
    rcases hf with rfl | rfl
    . cases hs
    . rfl
  cases hs
  rw [registry_eq] at hn
  cases hn
  obtain rfl : others = [⟨shape, ⟨"Bob", []⟩⟩, ⟨shape, cyd⟩] := (Except.ok.inj hothers).symm
  simp only [List.mem_cons, List.not_mem_nil, or_false] at hother
  rcases hother with rfl | rfl
  . rfl
  . rfl

theorem entity_run
    : ((Service.entity "People" (.single (.string "Ada")) {}).run.run
        (Service.after config calls)).1
      = .ok (entity ada [⟨"Children", .deferred true⟩]) := by
  cbv

theorem entity_run_expanded
    : ((Service.entity "People" (.single (.string "Ada"))
          { select := [["Children", "Name"]], expand := [["Children"]] }).run.run
        (Service.after config calls)).1
      = .ok { entity ada [⟨"Children", .many [entity ⟨"Bob", []⟩ [], entity cyd []]⟩] with
          values := [] } := by
  cbv

theorem follow_run
    : ((Service.follow "People" (.single (.string "Ada")) "Children"
          { select := [["Name"]] }).run.run (Service.after config calls)).1
        = .ok (.entities [entity ⟨"Bob", []⟩ [], entity cyd []])
        ∧
      ((Service.follow "People" (.single (.string "Ada")) "Name" {}).run.run
          (Service.after config calls)).1
        = .ok (.value ⟨"Name", .simple .string, .simple (.string "Ada")⟩) := by
  constructor
  . obtain ⟨l, answer, hl, hanswer, hfollow⟩ :=
      (Service.follow_eq_shown fieldsDistinct relatedAsDeclared "People" "Children" _ _
        { select := [["Name"]] } _ entity_run_expanded).1 _ rfl (by simp [eq_comm]) (by simp)
    cases hl
    cases hanswer
    exact hfollow
  . exact (Service.follow_eq_shown fieldsDistinct relatedAsDeclared "People" "Name" _ _ {} _
      entity_run).2 _ rfl rfl rfl

end Family

end Edm
