import Edm.Proofs.Ingesting.Steps
import Edm.Proofs.Rebuilding.Entity

/-!
This module contains the changes of an entity that make no difference to the record that is made of
it: what is not declared is not read, and what is declared is found by its name.
-/

namespace Edm

variable {α : Type}

theorem find?_replace {β : Type} {q : β → Bool} {x y : β} (l r : List β) (h : q x = q y)
    : (l ++ x :: r).find? q = (l ++ y :: r).find? q
        ∨
      (q x = true ∧ (l ++ x :: r).find? q = some x ∧ (l ++ y :: r).find? q = some y) := by
  rw [List.find?_append, List.find?_append]
  cases l.find? q with
  | some z => exact .inl rfl
  | none =>
    cases hx : q x with
    | true =>
      rw [List.find?_cons_of_pos hx, List.find?_cons_of_pos (h ▸ hx)]
      exact .inr ⟨rfl, rfl, rfl⟩
    | false =>
      rw [List.find?_cons_of_neg (by simp [hx]), List.find?_cons_of_neg (by simp [← h, hx])]
      exact .inl rfl

/-- No function of the service's owner is called when a record is made. -/
structure Registry.Hookless (r : Registry α) : Prop where
  sets : ∀ e ∈ r.sets, e.hooks? = none
  complexTypes : ∀ e ∈ r.complexTypes, e.hooks? = none

/-- What is read of an entity or a complex value, and by which accessor the fields are set. -/
structure Scope (α : Type) where
  accessor? : Option (Accessor α) := none
  properties : List String := []
  navigations : List String := []

def FieldType.shape? : FieldType → Option Shape
  | .record shape => some shape
  | _ => none

namespace Scope

def fieldShape? (sc : Scope α) (name : String) : Option Shape :=
  (sc.accessor?.bind fun a => a.fieldType? name).bind FieldType.shape?

def itemShape? (sc : Scope α) (name : String) : Option Shape :=
  (sc.accessor?.bind fun a => a.itemType? name).bind FieldType.shape?

end Scope

namespace Snapshot

section

variable (s : Snapshot α)

/-- What is read of a complex value, of which nothing is read if the shape has no complex type. -/
def complexScope (shape? : Option Shape) : Scope α :=
  match shape?.bind s.registry.complexOfShape? with
  | none => {}
  | some e =>
    match s.model.complexType? e.typeName with
    | none => {}
    | some t => { accessor? := some e.accessor, properties := t.properties.map (·.name) }

/-- What is read of an entity, of which nothing is read if the shape has no entity set. -/
def entityScope (shape? : Option Shape) : Scope α :=
  match shape?.bind s.registry.setOfShape? with
  | none => {}
  | some e =>
    match s.model.entitySet? e.name with
    | none => {}
    | some set => {
        accessor? := some e.accessor
        properties := set.type.properties.map (·.name)
        navigations := set.type.navigations.map (·.name) }

/--
A change of the values of an entity or of a complex value: of their order, by a value that is not
declared, of the types that they carry, or within a complex value among them.
-/
inductive EditValues : Scope α → List NamedValue → List NamedValue → Prop where
  | permute {sc : Scope α} {vs vs' : List NamedValue} (hnames : (vs.map (·.name)).Nodup)
      (h : vs.Perm vs') : EditValues sc vs vs'
  | add {sc : Scope α} {l r : List NamedValue} {v : NamedValue} (h : v.name ∉ sc.properties)
      : EditValues sc (l ++ r) (l ++ v :: r)
  | type {sc : Scope α} {l r : List NamedValue} {name : String} {t t' : PropertyType}
      {content : Content}
      : EditValues sc (l ++ ⟨name, t, content⟩ :: r) (l ++ ⟨name, t', content⟩ :: r)
  | complex {sc : Scope α} {l r : List NamedValue} {name : String} {t : PropertyType}
      {vs vs' : List NamedValue} (h : EditValues (s.complexScope (sc.fieldShape? name)) vs vs')
      : EditValues sc (l ++ ⟨name, t, .complex (some vs)⟩ :: r)
          (l ++ ⟨name, t, .complex (some vs')⟩ :: r)
  | itemType {sc : Scope α} {l r : List NamedValue} {name : String} {t : PropertyType}
      {it it' : ItemType} {items : List Item}
      : EditValues sc (l ++ ⟨name, t, .collection it items⟩ :: r)
          (l ++ ⟨name, t, .collection it' items⟩ :: r)
  | item {sc : Scope α} {l r : List NamedValue} {name : String} {t : PropertyType} {it : ItemType}
      {before after : List Item} {vs vs' : List NamedValue}
      (h : EditValues (s.complexScope (sc.itemShape? name)) vs vs')
      : EditValues sc (l ++ ⟨name, t, .collection it (before ++ .complex vs :: after)⟩ :: r)
          (l ++ ⟨name, t, .collection it (before ++ .complex vs' :: after)⟩ :: r)

/--
A change of an entity: of what identifies it, of its values, of the order of its links, by a link
that is not declared, by or of a link that shows nothing and hides no other one, or within an entity
that is shown with it.
-/
inductive EditEntity : Option Shape → Entity α → Entity α → Prop where
  | head {shape? : Option Shape} {en : Entity α} {set : String} {type : EntityType} {key : Key}
      {record? : Option (Record α)}
      : EditEntity shape? en { en with set, type, key, record? }
  | values {shape? : Option Shape} {en : Entity α} {vs : List NamedValue}
      (h : s.EditValues (s.entityScope shape?) en.values vs)
      : EditEntity shape? en { en with values := vs }
  | permute {shape? : Option Shape} {en : Entity α} {links : List (Link α)}
      (hnames : (en.links.map (·.name)).Nodup) (h : en.links.Perm links)
      : EditEntity shape? en { en with links }
  | add {shape? : Option Shape} {en : Entity α} {l r : List (Link α)} {link : Link α}
      (hlinks : en.links = l ++ r) (h : link.name ∉ (s.entityScope shape?).navigations)
      : EditEntity shape? en { en with links := l ++ link :: r }
  | addDeferred {shape? : Option Shape} {en : Entity α} {l r : List (Link α)} {name : String}
      {many : Bool} (hlinks : en.links = l ++ r)
      (h : ∀ link ∈ r, link.name = name → link.isInline = false)
      : EditEntity shape? en { en with links := l ++ ⟨name, .deferred many⟩ :: r }
  | deferred {shape? : Option Shape} {en : Entity α} {l r : List (Link α)} {name : String}
      {many many' : Bool} (hlinks : en.links = l ++ ⟨name, .deferred many⟩ :: r)
      : EditEntity shape? en { en with links := l ++ ⟨name, .deferred many'⟩ :: r }
  | single {shape? : Option Shape} {en : Entity α} {l r : List (Link α)} {name : String}
      {related related' : Entity α} (hlinks : en.links = l ++ ⟨name, .single (some related)⟩ :: r)
      (h : EditEntity ((s.entityScope shape?).fieldShape? name) related related')
      : EditEntity shape? en { en with links := l ++ ⟨name, .single (some related')⟩ :: r }
  | many {shape? : Option Shape} {en : Entity α} {l r : List (Link α)} {name : String}
      {before after : List (Entity α)} {related related' : Entity α}
      (hlinks : en.links = l ++ ⟨name, .many (before ++ related :: after)⟩ :: r)
      (h : EditEntity ((s.entityScope shape?).itemShape? name) related related')
      : EditEntity shape? en
          { en with links := l ++ ⟨name, .many (before ++ related' :: after)⟩ :: r }

end

section

variable {s : Snapshot α} {a : Accessor α} {p : Property} {name : String} {shape : Shape}

/-! ### Values -/

theorem error_bind {β γ : Type} {failure : Failure} (f g : β → Ingest α γ)
    : (liftM (Except.error failure) : Ingest α β) >>= f
        = (liftM (Except.error failure) : Ingest α β) >>= g := by
  rfl

theorem recordShape_bind_congr {β : Type} {type? : Option FieldType} {f g : Shape → Ingest α β}
    (h : ∀ shape, type? = some (.record shape) → f shape = g shape)
    : (liftM (recordShape name type?) >>= f) = liftM (recordShape name type?) >>= g := by
  unfold recordShape
  split
  . next shape =>
    rw [lift_ok, pure_bind, pure_bind]
    exact h shape rfl
  . apply error_bind

theorem fill_congr {vs vs' : List NamedValue} {declared : List Property}
    (h : ∀ p ∈ declared, ∀ data,
      s.setFound a p (NamedValue.find? vs p.name) data
        = s.setFound a p (NamedValue.find? vs' p.name) data) (data : α)
    : s.fill a vs declared data = s.fill a vs' declared data := by
  induction declared generalizing data with
  | nil => rw [fill, fill]
  | cons p declared ih =>
    rw [fill_cons_eq, fill_cons_eq, h p (by simp)]
    congr 1
    funext data'
    exact ih (fun p hp => h p (by simp [hp])) data'

theorem toComplexRecord_congr (hhooks : s.registry.Hookless) {vs vs' : List NamedValue}
    (h : ∀ a declared, (s.complexScope (some shape)).accessor? = some a →
      declared.map (·.name) = (s.complexScope (some shape)).properties →
        ∀ data, s.fill a vs declared data = s.fill a vs' declared data)
    : s.toComplexRecord vs shape = s.toComplexRecord vs' shape := by
  rw [toComplexRecord, toComplexRecord]
  split
  . rfl
  . next e he =>
    split
    . rfl
    . next t ht =>
      have hfill : ∀ data, s.fill e.accessor vs t.properties data
          = s.fill e.accessor vs' t.properties data := by
        apply h
        all_goals simp [complexScope, he, ht]
      rw [hhooks.complexTypes e (Registry.mem_of_complexOfShape? he).1]
      simp only [callHook, hfill]

theorem setProperty_complex_congr {vs vs' : List NamedValue}
    (h : ∀ shape, a.fieldType? p.name = some (.record shape) →
      s.toComplexRecord vs shape = s.toComplexRecord vs' shape) (data : α)
    : s.setProperty a p (.complex (some vs)) data
        = s.setProperty a p (.complex (some vs')) data := by
  obtain ⟨name, type, nullable⟩ := p
  unfold setProperty
  match type with
  | .single (.complex t) =>
    apply recordShape_bind_congr
    intro shape hshape
    rw [h shape hshape]
  | .single (.simple _) | .collection .. | .entity _ => rfl

theorem setProperty_collection_congr {t t' : ItemType} {items items' : List Item}
    (h : s.fieldValues a p.name items = s.fieldValues a p.name items') (data : α)
    : s.setProperty a p (.collection t items) data
        = s.setProperty a p (.collection t' items') data := by
  obtain ⟨name, type, nullable⟩ := p
  unfold setProperty
  match type with
  | .collection kind item =>
    dsimp only at h ⊢
    rw [h]
  | .single (.simple _) | .single (.complex _) | .entity _ => rfl

theorem fieldValues_congr {before after : List Item} {vs vs' : List NamedValue}
    (h : ∀ shape, a.itemType? name = some (.record shape) →
      s.toComplexRecord vs shape = s.toComplexRecord vs' shape)
    : s.fieldValues a name (before ++ .complex vs :: after)
        = s.fieldValues a name (before ++ .complex vs' :: after) := by
  induction before with
  | nil =>
    rw [List.nil_append, List.nil_append, fieldValues, fieldValues]
    apply recordShape_bind_congr
    intro shape hshape
    rw [h shape hshape]
  | cons item before ih =>
    cases item with
    | simple v => rw [List.cons_append, List.cons_append, fieldValues, fieldValues, ih]
    | complex values => rw [List.cons_append, List.cons_append, fieldValues, fieldValues, ih]

theorem setFound_congr {l r : List NamedValue} {t t' : PropertyType} {content content' : Content}
    (h : p.name = name → ∀ data,
      s.setProperty a p content data = s.setProperty a p content' data) (data : α)
    : s.setFound a p (NamedValue.find? (l ++ ⟨name, t, content⟩ :: r) p.name) data
        = s.setFound a p (NamedValue.find? (l ++ ⟨name, t', content'⟩ :: r) p.name) data := by
  unfold NamedValue.find?
  rcases find?_replace (q := fun v : NamedValue => v.name == p.name) (x := ⟨name, t, content⟩)
    (y := ⟨name, t', content'⟩) l r rfl with heq | ⟨hname, hx, hy⟩
  . rw [heq]
  . rw [hx, hy]
    exact h (beq_iff_eq.mp hname).symm data

theorem fill_eq_of_editValues (hhooks : s.registry.Hookless) {sc : Scope α}
    {vs vs' : List NamedValue} (h : s.EditValues sc vs vs')
    : ∀ a declared, sc.accessor? = some a → declared.map (·.name) = sc.properties →
        ∀ data, s.fill a vs declared data = s.fill a vs' declared data := by
  induction h with
  | permute hnames h =>
    intro a declared _ _ data
    apply fill_congr
    intro p _ data
    unfold NamedValue.find?
    rw [find?_eq_of_perm hnames h]
  | @add sc l r v h =>
    intro a declared _ hdeclared data
    apply fill_congr
    intro p hp data
    have hne : v.name ≠ p.name := by
      intro hname
      apply h
      rw [← hdeclared, hname]
      exact List.mem_map_of_mem hp
    unfold NamedValue.find?
    rw [List.find?_append, List.find?_append, List.find?_cons_of_neg (by simpa using hne)]
  | type =>
    intro a declared _ _ data
    apply fill_congr
    intro p _ data
    exact setFound_congr (fun _ _ => rfl) data
  | complex _ ih =>
    intro a declared ha _ data
    apply fill_congr
    intro p _ data
    apply setFound_congr
    rintro rfl
    apply setProperty_complex_congr
    intro shape hshape
    apply toComplexRecord_congr hhooks
    simpa [Scope.fieldShape?, ha, hshape, FieldType.shape?] using ih
  | itemType =>
    intro a declared _ _ data
    apply fill_congr
    intro p _ data
    exact setFound_congr (fun _ => setProperty_collection_congr rfl) data
  | item _ ih =>
    intro a declared ha _ data
    apply fill_congr
    intro p _ data
    apply setFound_congr
    rintro rfl
    apply setProperty_collection_congr
    apply fieldValues_congr
    intro shape hshape
    apply toComplexRecord_congr hhooks
    simpa [Scope.itemShape?, ha, hshape, FieldType.shape?] using ih

/-! ### Links -/

theorem followLinks_congr {en en' : Entity α} {navigations : List Navigation}
    (h : ∀ n ∈ navigations, ∀ data,
      s.followFound a n.name (en.link? n.name) data
        = s.followFound a n.name (en'.link? n.name) data) (data : α)
    : s.followLinks a en navigations data = s.followLinks a en' navigations data := by
  induction navigations generalizing data with
  | nil => rw [followLinks, followLinks]
  | cons n navigations ih =>
    rw [followLinks_cons_eq, followLinks_cons_eq, h n (by simp)]
    congr 1
    funext data'
    exact ih (fun n hn => h n (by simp [hn])) data'

theorem toRecord_congr (hhooks : s.registry.Hookless) {en en' : Entity α}
    (hfill : ∀ a declared, (s.entityScope (some shape)).accessor? = some a →
      declared.map (·.name) = (s.entityScope (some shape)).properties →
        ∀ data, s.fill a en.values declared data = s.fill a en'.values declared data)
    (hfollow : ∀ a, (s.entityScope (some shape)).accessor? = some a →
      ∀ name ∈ (s.entityScope (some shape)).navigations, ∀ data,
        s.followFound a name (en.link? name) data = s.followFound a name (en'.link? name) data)
    : s.toRecord en shape = s.toRecord en' shape := by
  rw [toRecord, toRecord]
  split
  . rfl
  . next e he =>
    unfold Model.entitySet
    cases hset : s.model.entitySet? e.name with
    | none => apply error_bind
    | some set =>
      have hfill : ∀ data, s.fill e.accessor en.values set.type.properties data
          = s.fill e.accessor en'.values set.type.properties data := by
        apply hfill
        all_goals simp [entityScope, he, hset]
      have hfollow : ∀ data, s.followLinks e.accessor en set.type.navigations data
          = s.followLinks e.accessor en' set.type.navigations data := by
        apply followLinks_congr
        intro n hn
        apply hfollow
        . simp [entityScope, he, hset]
        . simpa [entityScope, he, hset] using ⟨n, hn, rfl⟩
      rw [hhooks.sets e (Registry.mem_of_setOfShape? he).1]
      dsimp only
      rw [lift_ok, pure_bind, pure_bind]
      simp only [callHook, hfill, hfollow]

theorem toRecord_congr_links (hhooks : s.registry.Hookless) {en : Entity α} {links : List (Link α)}
    (h : ∀ a, (s.entityScope (some shape)).accessor? = some a →
      ∀ name ∈ (s.entityScope (some shape)).navigations, ∀ data,
        s.followFound a name (en.links.find? fun l => l.name == name) data
          = s.followFound a name (links.find? fun l => l.name == name) data)
    : s.toRecord en shape = s.toRecord { en with links } shape := by
  apply toRecord_congr hhooks
  . intro a declared _ _ data
    rfl
  . exact h

theorem toRecords_congr {before after : List (Entity α)} {en en' : Entity α}
    (h : s.toRecord en shape = s.toRecord en' shape)
    : s.toRecords (before ++ en :: after) shape = s.toRecords (before ++ en' :: after) shape := by
  induction before with
  | nil => rw [List.nil_append, List.nil_append, toRecords, toRecords, h]
  | cons other before ih => rw [List.cons_append, List.cons_append, toRecords, toRecords, ih]

theorem followFound_congr {l r : List (Link α)} {target target' : Target α} {n : String}
    (h : n = name → ∀ data,
      s.setNavigation a n target data = s.setNavigation a n target' data) (data : α)
    : s.followFound a n ((l ++ ⟨name, target⟩ :: r).find? fun l => l.name == n) data
        = s.followFound a n ((l ++ ⟨name, target'⟩ :: r).find? fun l => l.name == n) data := by
  rcases find?_replace (q := fun link : Link α => link.name == n) (x := ⟨name, target⟩)
    (y := ⟨name, target'⟩) l r rfl with heq | ⟨hname, hx, hy⟩
  . rw [heq]
  . rw [hx, hy]
    exact h (beq_iff_eq.mp hname).symm data

theorem followFound_deferred {links : List (Link α)} {n : String}
    (h : ∀ link ∈ links, link.name = n → link.isInline = false) (data : α)
    : s.followFound a n (links.find? fun l => l.name == n) data = pure data := by
  cases hfound : links.find? fun l => l.name == n with
  | none => rfl
  | some link =>
    have hlink := h link (List.mem_of_find?_eq_some hfound)
      (by simpa using List.find?_some hfound)
    obtain ⟨name, target⟩ := link
    match target with
    | .deferred many => rw [followFound, setNavigation]
    | .single _ | .many _ => cases hlink

theorem toRecord_eq_of_editEntity (hhooks : s.registry.Hookless) {shape? : Option Shape}
    {en en' : Entity α} (h : s.EditEntity shape? en en')
    : ∀ shape, shape? = some shape → s.toRecord en shape = s.toRecord en' shape := by
  induction h with
  | head =>
    rintro shape rfl
    exact toRecord_congr hhooks (fun _ _ _ _ _ => rfl) (fun _ _ _ _ _ => rfl)
  | values h =>
    rintro shape rfl
    exact toRecord_congr hhooks (fill_eq_of_editValues hhooks h) (fun _ _ _ _ _ => rfl)
  | permute hnames h =>
    rintro shape rfl
    apply toRecord_congr_links hhooks
    intro a _ name _ data
    rw [find?_eq_of_perm hnames h]
  | @add _ en l r link hlinks h =>
    rintro shape rfl
    apply toRecord_congr_links hhooks
    intro a _ name hname data
    have hne : link.name ≠ name := fun heq => h (heq ▸ hname)
    rw [hlinks, List.find?_append, List.find?_append, List.find?_cons_of_neg (by simpa using hne)]
  | @addDeferred _ en l r name many hlinks h =>
    rintro shape rfl
    apply toRecord_congr_links hhooks
    intro a _ n _ data
    rw [hlinks, List.find?_append, List.find?_append]
    cases l.find? fun link => link.name == n with
    | some link => rfl
    | none =>
      by_cases hname : name = n
      . subst hname
        rw [List.find?_cons_of_pos (by simp), Option.none_or, Option.none_or,
          followFound_deferred h, followFound, setNavigation]
      . rw [List.find?_cons_of_neg (by simpa using hname)]
  | deferred hlinks =>
    rintro shape rfl
    apply toRecord_congr_links hhooks
    intro a _ n _ data
    rw [hlinks]
    apply followFound_congr
    intro _ data
    rw [setNavigation, setNavigation]
  | single hlinks _ ih =>
    rintro shape rfl
    apply toRecord_congr_links hhooks
    intro a ha n _ data
    rw [hlinks]
    apply followFound_congr
    rintro rfl data
    rw [setNavigation, setNavigation]
    apply recordShape_bind_congr
    intro shape hshape
    rw [ih shape (by simp [Scope.fieldShape?, ha, hshape, FieldType.shape?])]
  | many hlinks _ ih =>
    rintro shape rfl
    apply toRecord_congr_links hhooks
    intro a ha n _ data
    rw [hlinks]
    apply followFound_congr
    rintro rfl data
    rw [setNavigation, setNavigation]
    apply recordShape_bind_congr
    intro shape hshape
    rw [toRecords_congr (ih shape (by simp [Scope.itemShape?, ha, hshape, FieldType.shape?]))]

/-- Any number of changes of an entity lead to the same record or to the same failure. -/
theorem toRecord_eq_of_edits (hhooks : s.registry.Hookless) {en en' : Entity α}
    (h : Relation.EqvGen (s.EditEntity (some shape)) en en')
    : s.toRecord en shape = s.toRecord en' shape := by
  induction h with
  | rel en en' h => exact toRecord_eq_of_editEntity hhooks h shape rfl
  | refl en => rfl
  | symm en en' _ ih => exact ih.symm
  | trans en en' en'' _ _ ih ih' => exact ih.trans ih'

end

end Snapshot

namespace Items

theorem hookless : registry.Hookless where
  sets := by
    intro e he
    obtain rfl : e = entry := List.mem_singleton.mp he
    rfl
  complexTypes := by
    intro e he
    obtain rfl : e = detail := List.mem_singleton.mp he
    rfl

def pageEntity : Entity Item := entity page (.deferred false)

def bookEntity : Entity Item := entity book (.single (some pageEntity))

def turnedEntity : Entity Item :=
  { bookEntity with
    set := "Books"
    key := .single (.int32 7)
    values := bookEntity.values.reverse
    links := [
      ⟨"Previous", .deferred true⟩,
      ⟨"Next", .single (some { pageEntity with values := pageEntity.values.reverse })⟩] }

theorem toRecord_turned
    : snapshot.toRecord bookEntity itemShape = snapshot.toRecord turnedEntity itemShape := by
  apply Snapshot.toRecord_eq_of_edits hookless
  have hpage : snapshot.EditEntity (some itemShape) pageEntity
      { pageEntity with values := pageEntity.values.reverse } :=
    .values (.permute (by decide) (List.reverse_perm _).symm)
  have hhead : snapshot.EditEntity (some itemShape) bookEntity
      { bookEntity with set := "Books", key := .single (.int32 7) } := .head
  refine .trans _ _ _ (.rel _ _ hhead) ?_
  refine .trans _ _ _ (.rel _ _ (.values (.permute (by decide) (List.reverse_perm _).symm))) ?_
  refine .trans _ _ _ (.rel _ _ (.single (l := []) (r := []) rfl hpage)) ?_
  exact .rel _ _ (.add (l := []) rfl (by decide))

end Items

end Edm
