import Edm.Expr.Eval
import Edm.Proofs.Following

/-!
This module contains the agreement of filters with what is shown: a path leads from a record to the
value that the entity of the record carries at the path.
-/

namespace Edm

variable {α : Type}

/--
What an entity carries at a path, given its values and its links. The path runs through complex
values and through links with one entity; beyond a null everything is null.
-/
inductive Carries : List NamedValue → List (Link α) → Path → Value → Prop where
  | simple {values : List NamedValue} {links : List (Link α)} {p : NamedValue} {v : Value}
      (hp : p ∈ values) (hcontent : p.content = .simple v) : Carries values links [p.name] v
  | complex {values inner : List NamedValue} {links : List (Link α)} {p : NamedValue} {path : Path}
      {v : Value} (hp : p ∈ values) (hcontent : p.content = .complex (some inner))
      (h : Carries inner [] path v) : Carries values links (p.name :: path) v
  | link {values : List NamedValue} {links : List (Link α)} {l : Link α} {en : Entity α}
      {path : Path} {v : Value} (hl : l ∈ links) (htarget : l.target = .single (some en))
      (h : Carries en.values en.links path v) : Carries values links (l.name :: path) v
  | nullComplex {values : List NamedValue} {links : List (Link α)} {p : NamedValue} {path : Path}
      (hp : p ∈ values) (hcontent : p.content = .complex none) (hpath : path ≠ [])
      : Carries values links (p.name :: path) .null
  | nullLink {values : List NamedValue} {links : List (Link α)} {l : Link α} {path : Path}
      (hl : l ∈ links) (htarget : l.target = .single none) (hpath : path ≠ [])
      : Carries values links (l.name :: path) .null

theorem Carries.ne_nil {values : List NamedValue} {links : List (Link α)} {path : Path} {v : Value}
    (h : Carries values links path v) : path ≠ [] := by
  cases h <;> exact List.cons_ne_nil _ _

/-- No shape is that of a set and that of a complex type. -/
def Registry.ShapesApart (r : Registry α) : Prop :=
  ∀ e ∈ r.sets, ∀ c ∈ r.complexTypes, e.shape ≠ c.shape

/-! ### Reading a field -/

namespace Expr

variable {resolve : Shape → Option (Accessor α)} {a : Accessor α} {r other : Record α}
  {field : String} {v : FieldValue α} {full path : Path}

theorem readField_eq (hresolve : resolve r.shape = some a) (h : a.get r.data field = .ok v)
    : readField resolve full r field = .ok v := by
  unfold readField
  rw [hresolve]
  dsimp only
  rw [h]

theorem followPath_last {w : Value} (hresolve : resolve r.shape = some a)
    (hget : a.get r.data field = .ok v) (hv : v.simpleValue field = .ok w)
    : followPath resolve full r [field] = .ok w := by
  unfold followPath
  rw [readField_eq hresolve hget, ok_bind]
  cases v with
  | null | simple | enum =>
    cases hv
    rfl
  | record => cases hv

theorem followPath_null (hresolve : resolve r.shape = some a)
    (hget : a.get r.data field = .ok .null) (hpath : path ≠ [])
    : followPath resolve full r (field :: path) = .ok .null := by
  obtain ⟨next, rest, rfl⟩ := List.exists_cons_of_ne_nil hpath
  unfold followPath
  rw [readField_eq hresolve hget, ok_bind]

theorem followPath_record (hresolve : resolve r.shape = some a)
    (hget : a.get r.data field = .ok (.record other)) (hpath : path ≠ [])
    : followPath resolve full r (field :: path) = followPath resolve full other path := by
  obtain ⟨next, rest, rfl⟩ := List.exists_cons_of_ne_nil hpath
  rw [followPath, readField_eq hresolve hget, ok_bind]
  exact List.cons_ne_nil _ _

end Expr

namespace Snapshot

/-! ### What a value or a link tells about the record -/

section

variable {s : Snapshot α} {a : Accessor α} {data : α}

def FieldHolds (s : Snapshot α) (a : Accessor α) (data : α) (field : String) : Content → Prop
  | .simple v => ∃ held, a.get data field = .ok held ∧ held.simpleValue field = .ok v
  | .complex none => a.get data field = .ok .null
  | .complex (some inner) =>
    ∃ depth other,
      a.get data field = .ok (.record other) ∧ s.complexValues depth other = .ok (some inner)
  | .collection .. => True

def FieldLeadsTo (s : Snapshot α) (a : Accessor α) (data : α) (field : String) : Target α → Prop
  | .single none => a.get data field = .ok .null
  | .single (some en) =>
    ∃ selection n other,
      a.get data field = .ok (.record other) ∧ s.expand selection n other = .ok en
  | _ => True

theorem fieldHolds_of_namedValue {depth : Nat} {property : Property} {p : NamedValue}
    (h : s.namedValue depth a data property = .ok (some p))
    : s.FieldHolds a data p.name p.content := by
  cases projects_of_namedValue h with
  | simple _ hfield hv _ => exact ⟨_, hfield, hv⟩
  | shownNull _ hfield _ => exact hfield
  | complex _ hfield hvalues => exact ⟨depth, _, hfield, hvalues⟩
  | collection => trivial

theorem get_of_related {n : Navigation} {records : List (Record α)}
    (hn : n.multiplicity.isMany = false) (h : a.related data n = .ok records)
    : (records = [] ∧ a.get data n.name = .ok .null)
        ∨ ∃ other, records = [other] ∧ a.get data n.name = .ok (.record other) := by
  unfold Accessor.related at h
  rw [hn] at h
  obtain ⟨fields, hfields, h⟩ := bind_eq_ok.mp h
  obtain ⟨field, hget, rfl⟩ := map_eq_ok.mp hfields
  obtain ⟨others, hothers, h⟩ := bind_eq_ok.mp h
  rw [List.mapM_cons] at hothers
  obtain ⟨other?, hother, hothers⟩ := bind_eq_ok.mp hothers
  cases hothers
  cases field with
  | null =>
    cases hother
    cases h
    exact .inl ⟨rfl, hget⟩
  | record other =>
    cases hother
    cases h
    exact .inr ⟨other, rfl, hget⟩
  | simple v => cases hother
  | enum member => cases hother

theorem fieldLeadsTo_of_link {selection : Selection} {n : Navigation} {l : Link α}
    (h : s.link a data selection n = .ok l) : s.FieldLeadsTo a data l.name l.target := by
  cases leads_of_link h with
  | deferred | many => trivial
  | none _ hone hrecords =>
    rcases get_of_related hone hrecords with ⟨_, hget⟩ | ⟨_, hnil, _⟩
    . exact hget
    . cases hnil
  | single _ hone hrecords hen =>
    rcases get_of_related hone hrecords with ⟨hnil, _⟩ | ⟨_, hothers, hget⟩
    . cases hnil
    . cases hothers
      exact ⟨selection, n, _, hget, hen⟩

end

/-! ### Records and what is shown of them -/

/-- Values and links that are shown of a record, with the accessor that the record is read with. -/
def ShownOf (s : Snapshot α) (r : Record α) (values : List NamedValue) (links : List (Link α))
    : Prop :=
  ∃ a,
    s.registry.accessor? r.shape = some a
      ∧
    (∀ p ∈ values, s.FieldHolds a r.data p.name p.content)
      ∧
    (∀ l ∈ links, s.FieldLeadsTo a r.data l.name l.target)

section

variable {s : Snapshot α} {r : Record α}

theorem fieldHolds_of_mem {depth : Nat} {a : Accessor α} {data : α} {ps : List Property}
    {values : List (Option NamedValue)}
    (h : ps.mapM (fun p => s.namedValue depth a data p) = .ok values)
    : ∀ p ∈ values.filterMap id, s.FieldHolds a data p.name p.content := by
  intro p hp
  obtain ⟨p?, hmem, rfl⟩ := List.mem_filterMap.mp hp
  obtain ⟨property, _, hproperty⟩ := exists_of_mapM h hmem
  exact fieldHolds_of_namedValue hproperty

theorem shownOf_complexValues (hapart : s.registry.ShapesApart) {depth : Nat}
    {values : List NamedValue} (h : s.complexValues depth r = .ok (some values))
    : s.ShownOf r values [] := by
  cases depth with
  | zero =>
    rw [complexValues] at h
    cases h
  | succ depth =>
    rw [complexValues] at h
    split at h
    . cases h
    . next c hc =>
      split at h
      . cases h
      . next t _ =>
        obtain ⟨values?, hvalues, h⟩ := bind_eq_ok.mp h
        cases h
        obtain ⟨hmem, hshape⟩ := Registry.mem_of_complexOfShape? hc
        have hset : s.registry.setOfShape? r.shape = none := by
          unfold Registry.setOfShape?
          rw [List.find?_eq_none]
          intro e he heq
          exact hapart e he c hmem ((beq_iff_eq.mp heq).trans hshape.symm)
        refine ⟨c.accessor, ?_, fieldHolds_of_mem hvalues, by simp⟩
        unfold Registry.accessor?
        rw [hset, hc]
        rfl

theorem shownOf_toEntity (hdistinct : s.registry.Distinct) {set : EntitySet} {e : SetEntry α}
    (he : s.registry.set? set.name = some e) (hr : r.shape = e.shape) {selection : Selection}
    {en : Entity α} (h : s.toEntity set r selection = .ok en)
    : s.ShownOf r en.values en.links := by
  obtain ⟨e', values, he', _, hvalues, henvalues, hlinks, _, _⟩ := exists_of_toEntity h
  obtain rfl : e = e' := by
    unfold entry at he'
    rw [he] at he'
    exact Except.ok.inj he'
  refine ⟨e.accessor, ?_, ?_, ?_⟩
  . unfold Registry.accessor?
    rw [hr, Registry.setOfShape?_of_mem hdistinct (Registry.mem_of_set? he).1]
  . rw [henvalues]
    exact fieldHolds_of_mem hvalues
  . intro l hl
    obtain ⟨n, _, hn⟩ := exists_of_mapM hlinks hl
    exact fieldLeadsTo_of_link hn

theorem shownOf_expand (hdistinct : s.registry.Distinct)
    (hgenerate : s.registry.generate s.config = .ok s.model) {selection : Selection}
    {n : Navigation} {en : Entity α} (h : s.expand selection n r = .ok en)
    : s.ShownOf r en.values en.links := by
  obtain ⟨set, hset, hen⟩ := bind_eq_ok.mp h
  unfold setOfShape at hset
  split at hset
  . cases hset
  . next e he =>
    obtain ⟨hmem, hshape⟩ := Registry.mem_of_setOfShape? he
    obtain ⟨t, ht, _⟩ := Registry.exists_entitySet hgenerate hmem
    rw [ht] at hset
    cases hset
    exact shownOf_toEntity hdistinct (Registry.set?_of_mem hdistinct hmem) hshape.symm hen

theorem followPath_of_carries (hdistinct : s.registry.Distinct)
    (hgenerate : s.registry.generate s.config = .ok s.model) (hapart : s.registry.ShapesApart)
    {values : List NamedValue} {links : List (Link α)} {path : Path} {v : Value}
    (h : Carries values links path v) (hshown : s.ShownOf r values links) (full : Path)
    : Expr.followPath s.registry.accessor? full r path = .ok v := by
  -- Each step reads one field of a record, and what is carried behind it is shown of the next one.
  induction h generalizing r with
  | simple hp hcontent =>
    obtain ⟨a, ha, hvalues, _⟩ := hshown
    have hfield := hvalues _ hp
    rw [hcontent] at hfield
    obtain ⟨field, hget, hv⟩ := hfield
    exact Expr.followPath_last ha hget hv
  | complex hp hcontent hpath ih =>
    obtain ⟨a, ha, hvalues, _⟩ := hshown
    have hfield := hvalues _ hp
    rw [hcontent] at hfield
    obtain ⟨depth, other, hget, hinner⟩ := hfield
    rw [Expr.followPath_record ha hget hpath.ne_nil]
    exact ih (shownOf_complexValues hapart hinner)
  | link hl htarget hpath ih =>
    obtain ⟨a, ha, _, hlinks⟩ := hshown
    have hfield := hlinks _ hl
    rw [htarget] at hfield
    obtain ⟨selection, n, other, hget, hen⟩ := hfield
    rw [Expr.followPath_record ha hget hpath.ne_nil]
    exact ih (shownOf_expand hdistinct hgenerate hen)
  | nullComplex hp hcontent hpath =>
    obtain ⟨a, ha, hvalues, _⟩ := hshown
    have hfield := hvalues _ hp
    rw [hcontent] at hfield
    exact Expr.followPath_null ha hfield hpath
  | nullLink hl htarget hpath =>
    obtain ⟨a, ha, _, hlinks⟩ := hshown
    have hfield := hlinks _ hl
    rw [htarget] at hfield
    exact Expr.followPath_null ha hfield hpath

end

end Snapshot

namespace Service

/--
Filters see what is shown: whatever an entity carries at a path, be it through complex values and
through links with one entity, is the value of that path for the record of the entity.
-/
theorem evaluate_eq_shown {config : Config} {calls : List (Call α)} {s : Snapshot α}
    (hs : (snapshot.run.run (after config calls)).1 = .ok s)
    (hapart : s.registry.ShapesApart) {set : EntitySet} {e : SetEntry α}
    (he : s.registry.set? set.name = some e) {r : Record α} (hr : r.shape = e.shape)
    {selection : Selection} {en : Entity α} (hen : s.toEntity set r selection = .ok en)
    {path : Path} {v : Value} (h : Carries en.values en.links path v)
    : (Expr.property path).evaluate s.registry.accessor? r = .ok v := by
  obtain ⟨hregistry, hgenerate⟩ := (fresh_after config calls).generate_eq hs
  have hdistinct : s.registry.Distinct := hregistry ▸ (fresh_after config calls).distinct
  rw [Expr.evaluate]
  exact Snapshot.followPath_of_carries hdistinct hgenerate hapart h
    (Snapshot.shownOf_toEntity hdistinct he hr hen) path

end Service

/-! ### Workers and their bosses -/

namespace Staff

structure Place where
  city : String

structure Worker where
  name : String
  office : Option Place
  boss : Option Worker

inductive Row where
  | place (p : Place)
  | worker (w : Worker)

def place : Kind Row Place where
  name := "Place"
  inject := .place
  project?
    | .place p => some p
    | _ => none

def worker : Kind Row Worker where
  name := "Worker"
  inject := .worker
  project?
    | .worker w => some w
    | _ => none

def placeShape : Shape := ⟨"place"⟩

def workerShape : Shape := ⟨"worker"⟩

def workers : SetEntry Row where
  name := "Workers"
  typeName := "Worker"
  shape := workerShape
  accessor := .typed worker ⟨"", none, none⟩ [
    (Member.simple "Name" .string .string (·.name) fun w name => { w with name }).notNull,
    .record "Office" placeShape place (·.office) fun w office => { w with office },
    .record "Boss" workerShape worker (·.boss) fun w boss => { w with boss }]
  keys := ["Name"]
  records := []
  hooks? := none

def places : ComplexEntry Row where
  typeName := "Place"
  shape := placeShape
  accessor := .typed place ⟨""⟩ [
    (Member.simple "City" .string .string (·.city) fun p city => { p with city }).notNull]
  hooks? := none

def config : Config := { enumsAsStrings := false }

def calls : List (Call Row) := [.registerSet workers, .registerComplexType places]

def placeType : ComplexType where
  namespace_ := "InMemory"
  name := "Place"
  properties := [⟨"City", .simple .string, false⟩]

def workerType : EntityType where
  namespace_ := "InMemory"
  name := "Worker"
  keys := ["Name"]
  properties := [⟨"Name", .simple .string, false⟩, ⟨"Office", .complex placeType, true⟩]
  navigations := [⟨"Boss", .zeroOrOne, "Worker"⟩]

def model : Model where
  namespace_ := "InMemory"
  containerName := "Container"
  sets := [⟨"Workers", workerType⟩]
  complexTypes := [placeType]
  setNames_nodup := by decide
  typeNames_nodup := by decide
  complexNames_nodup := by decide

def snapshot : Snapshot Row := ⟨{ sets := [workers], complexTypes := [places] }, model, config⟩

theorem snapshot_eq : (Service.snapshot.run.run (Service.after config calls)).1 = .ok snapshot := by
  cbv

theorem shapesApart : snapshot.registry.ShapesApart := by
  intro e he c hc
  obtain rfl : e = workers := List.mem_singleton.mp he
  obtain rfl : c = places := List.mem_singleton.mp hc
  decide

def bob : Worker := ⟨"Bob", some ⟨"Oslo"⟩, none⟩

def ada : Worker := ⟨"Ada", none, some bob⟩

def entity (w : Worker) (boss : Option (Entity Row)) : Entity Row where
  set := "Workers"
  type := workerType
  key := .single (.string w.name)
  values := [
    ⟨"Name", .simple .string, .simple (.string w.name)⟩,
    ⟨"Office", .complex placeType,
      .complex (w.office.map fun p => [⟨"City", .simple .string, .simple (.string p.city)⟩])⟩]
  links := [⟨"Boss", .single boss⟩]
  record? := some ⟨workerShape, .worker w⟩

theorem toEntity_eq
    : snapshot.toEntity ⟨"Workers", workerType⟩ ⟨workerShape, .worker ada⟩
        (.expandAll [["Boss", "Boss"]]) = .ok (entity ada (some (entity bob none))) := by
  cbv

/-- The office of the boss, that of the worker, which is null, and the boss of the boss likewise. -/
theorem evaluate_ada
    : let value (path : Path) :=
        (Expr.property path).evaluate snapshot.registry.accessor? ⟨workerShape, .worker ada⟩
      value ["Boss", "Office", "City"] = .ok (.string "Oslo")
        ∧
      value ["Office", "City"] = .ok .null
        ∧
      value ["Boss", "Boss", "Office", "City"] = .ok .null := by
  have hset : snapshot.registry.set? "Workers" = some workers := rfl
  have hbob : Carries (entity bob none).values (entity bob none).links ["Office", "City"]
      (.string "Oslo") :=
    .complex (List.mem_cons_of_mem _ List.mem_cons_self) rfl (.simple List.mem_cons_self rfl)
  have hboss : Carries (entity bob none).values (entity bob none).links ["Boss", "Office", "City"]
      .null :=
    .nullLink List.mem_cons_self rfl (List.cons_ne_nil _ _)
  have hada : ∀ boss : Option (Entity Row),
      Carries (entity ada boss).values (entity ada boss).links ["Office", "City"] .null :=
    fun boss =>
      .nullComplex (List.mem_cons_of_mem _ List.mem_cons_self) rfl (List.cons_ne_nil _ _)
  refine ⟨?_, ?_, ?_⟩
  . exact Service.evaluate_eq_shown snapshot_eq shapesApart hset rfl toEntity_eq
      (.link List.mem_cons_self rfl hbob)
  . exact Service.evaluate_eq_shown snapshot_eq shapesApart hset rfl toEntity_eq (hada _)
  . exact Service.evaluate_eq_shown snapshot_eq shapesApart hset rfl toEntity_eq
      (.link List.mem_cons_self rfl hboss)

end Staff

end Edm
