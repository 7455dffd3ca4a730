import Edm.Proofs.Lawful

/-!
This module contains the laws of accessors that are made from other accessors: they keep what is
written to them if the other ones do.
-/

namespace Edm.Accessor

variable {α τ : Type} {types : Shape → Type}

/-! ### Computed keys -/

section

variable {kinds : (shape : Shape) → Kind α (types shape)} {shape : Shape} {a : Accessor α}

theorem hasComputedKey_withComputedKey (type : SimpleType) (key : α → Except Failure Value)
    : (a.withComputedKey type key).HasComputedKey where
  field := ⟨type, a.fields, rfl⟩
  set := by
    intro data v
    simp [withComputedKey]

theorem withComputedKey_get {type : SimpleType} {key : α → Except Failure Value} {name : String}
    (hname : name ≠ entityId) (data : α)
    : (a.withComputedKey type key).get data name = a.get data name := by
  unfold withComputedKey
  dsimp
  rw [if_neg hname]

theorem withComputedKey_set {type : SimpleType} {key : α → Except Failure Value} {name : String}
    (hname : name ≠ entityId) (data : α) (v : FieldValue α)
    : (a.withComputedKey type key).set data name v = a.set data name v := by
  unfold withComputedKey
  dsimp
  rw [if_neg hname]

theorem Lawful.withComputedKey (ha : a.Lawful kinds shape) (type : SimpleType)
    (key : α → Except Failure Value) (hname : entityId ∉ a.fields.map (·.name))
    : (a.withComputedKey type key).Lawful kinds shape := by
  have hcomputed := hasComputedKey_withComputedKey (a := a) type key
  have hinner : ∀ f ∈ a.fields, f.name ≠ entityId := by
    intro f hf heq
    exact hname (heq ▸ List.mem_map_of_mem hf)
  have hstores : ∀ f ∈ a.fields, a.Stores f.name := fun f hf _ => hinner f hf
  -- Only the field of the key is read in another way than before.
  have hsame : ∀ name data data', name ≠ entityId → a.SameAt name data data' →
      (a.withComputedKey type key).SameAt name data data' := by
    rintro name data data' hname' ⟨hget, hgetAll⟩
    refine ⟨?_, hgetAll⟩
    rw [withComputedKey_get hname', withComputedKey_get hname', hget]
  refine ⟨?_, ha.create, ?_, ?_, ?_, ?_⟩
  . exact List.nodup_cons.mpr ⟨hname, ha.names⟩
  . intro f hf hsingle hstored data hdata
    rcases List.mem_cons.mp hf with rfl | hf
    . exact absurd rfl (hstored hcomputed)
    . rw [withComputedKey_get (hinner f hf)]
      exact ha.get f hf hsingle (hstores f hf) data hdata
  . intro f hf hsingle hstored data v hdata hv
    rcases List.mem_cons.mp hf with rfl | hf
    . exact absurd rfl (hstored hcomputed)
    . simp only [withComputedKey_get (hinner f hf)] at hv
      obtain ⟨data', hset, hdata', hread, hothers⟩ :=
        ha.set f hf hsingle (hstores f hf) data v hdata hv
      refine ⟨data', ?_, hdata', ?_, ?_⟩
      . rw [withComputedKey_set (hinner f hf), hset]
      . rw [withComputedKey_get (hinner f hf), hread]
      . intro name hne hstored'
        exact hsame name data data' (hstored' hcomputed)
          (hothers name hne fun _ => hstored' hcomputed)
  . intro f hf hmany data hdata
    rcases List.mem_cons.mp hf with rfl | hf
    . cases hmany
    . exact ha.getAll f hf hmany data hdata
  . intro f hf hmany data vs hdata hvs
    rcases List.mem_cons.mp hf with rfl | hf
    . cases hmany
    . obtain ⟨data', hset, hdata', hread, hothers⟩ := ha.setAll f hf hmany data vs hdata hvs
      refine ⟨data', hset, hdata', hread, ?_⟩
      intro name hne hstored'
      exact hsame name data data' (hstored' hcomputed)
        (hothers name hne fun _ => hstored' hcomputed)

end

/-! ### Enumerations as texts -/

section

variable {kinds : (shape : Shape) → Kind α (types shape)} {shape : Shape} {a : Accessor α}

theorem enumToText_ofValue (v : Value)
    : (FieldValue.ofValue v : FieldValue α).enumToText = .ofValue v := by
  cases v <;> rfl

def textField (f : Field) : Field :=
  if f.type.isEnumeration then { f with type := .simple .string } else f

theorem textField_name (f : Field) : (textField f).name = f.name := by
  unfold textField
  split <;> rfl

theorem textField_collection (f : Field) : (textField f).collection = f.collection := by
  unfold textField
  split <;> rfl

theorem enumsAsText_fields (a : Accessor α) : a.enumsAsText.fields = a.fields.map textField := by
  rfl

theorem field?_of_mem (hnames : (a.fields.map (·.name)).Nodup) {f : Field} (hf : f ∈ a.fields)
    : a.field? f.name = some f := by
  exact find?_eq_some_of_nodup hnames hf

theorem fitsItem_enumToText {f : Field} {v : FieldValue α} (hv : FitsItem kinds f.type v)
    : FitsItem kinds (textField f).type v.enumToText
        ∧
      (if f.type.isEnumeration then v.enumToText.textToEnum else v.enumToText) = v := by
  obtain ⟨name, type, collection, nullable⟩ := f
  cases hv with
  | simple t v =>
    rw [enumToText_ofValue]
    exact ⟨.simple t v, rfl⟩
  | enumeration enum member => exact ⟨.simple .string (.string member), rfl⟩
  | nested h =>
    cases h with
    | record h => exact ⟨.nested (.record h), rfl⟩

theorem fits_enumToText {f : Field} {v : FieldValue α} (hv : Fits kinds f.type v)
    : Fits kinds (textField f).type v.enumToText
        ∧
      (if f.type.isEnumeration then v.enumToText.textToEnum else v.enumToText) = v := by
  obtain ⟨name, type, collection, nullable⟩ := f
  cases hv with
  | item h => exact ⟨.item (fitsItem_enumToText h).1, (fitsItem_enumToText h).2⟩
  | null shape => exact ⟨.null shape, rfl⟩

theorem fits_enumToText_all {f : Field} {vs : List (FieldValue α)}
    (hvs : ∀ v ∈ vs, FitsItem kinds f.type v)
    : (∀ v ∈ vs.map .enumToText, FitsItem kinds (textField f).type v)
        ∧
      (if f.type.isEnumeration then (vs.map .enumToText).map .textToEnum
        else vs.map .enumToText) = vs := by
  constructor
  . intro v hv
    obtain ⟨item, hitem, rfl⟩ := List.mem_map.mp hv
    exact (fitsItem_enumToText (hvs item hitem)).1
  . induction vs with
    | nil => split <;> rfl
    | cons v vs ih =>
      have hv := (fitsItem_enumToText (hvs v (by simp))).2
      have hvs := ih fun v hv => hvs v (by simp [hv])
      split at hv
      . next henum =>
        rw [if_pos henum] at hvs ⊢
        rw [List.map_cons, List.map_cons, hv, hvs]
      . next henum =>
        rw [if_neg henum] at hvs ⊢
        rw [List.map_cons, hv, hvs]

theorem enumsAsText_get {data : α} {name : String} {v : FieldValue α}
    (h : a.get data name = .ok v) : a.enumsAsText.get data name = .ok v.enumToText := by
  unfold enumsAsText
  dsimp
  rw [h]
  rfl

theorem enumsAsText_getAll {data : α} {name : String} {vs : List (FieldValue α)}
    (h : a.getAll data name = .ok (some vs))
    : a.enumsAsText.getAll data name = .ok (some (vs.map .enumToText)) := by
  unfold enumsAsText
  dsimp
  rw [h]
  rfl

theorem enumsAsText_set (hnames : (a.fields.map (·.name)).Nodup) {f : Field} (hf : f ∈ a.fields)
    (data : α) (v : FieldValue α)
    : a.enumsAsText.set data f.name v
        = a.set data f.name (if f.type.isEnumeration then v.textToEnum else v) := by
  simp only [enumsAsText, field?_of_mem hnames hf, Option.any_some]

theorem enumsAsText_setAll (hnames : (a.fields.map (·.name)).Nodup) {f : Field} (hf : f ∈ a.fields)
    (data : α) (vs : List (FieldValue α))
    : a.enumsAsText.setAll data f.name vs
        = a.setAll data f.name (if f.type.isEnumeration then vs.map .textToEnum else vs) := by
  simp only [enumsAsText, field?_of_mem hnames hf, Option.any_some]

theorem SameAt.enumsAsText {name : String} {data data' : α} (h : a.SameAt name data data')
    : a.enumsAsText.SameAt name data data' := by
  unfold SameAt Accessor.enumsAsText
  dsimp
  rw [h.1, h.2]
  exact ⟨rfl, rfl⟩

theorem HasComputedKey.enumsAsText (h : a.HasComputedKey) : a.enumsAsText.HasComputedKey where
  field := by
    obtain ⟨type, fields, hfields⟩ := h.field
    exact ⟨type, fields.map textField, by rw [enumsAsText_fields, hfields, List.map_cons]; rfl⟩
  set := by
    intro data v
    exact h.set data _

theorem nested_of_textField {f : Field} {v : FieldValue α} (h : Nested kinds (textField f).type v)
    : Nested kinds f.type v ∧ f.type.isEnumeration = false ∧ v.enumToText = v := by
  unfold textField at h
  split at h
  . cases h
  . next henum =>
    refine ⟨h, by simpa using henum, ?_⟩
    generalize f.type = type at h
    cases h
    rfl

theorem allNested_of_textField {f : Field} {vs : List (FieldValue α)}
    (h : AllNested kinds (textField f).type vs)
    : AllNested kinds f.type vs ∧ f.type.isEnumeration = false ∧ vs.map .enumToText = vs := by
  unfold textField at h
  split at h
  . cases h
  . next henum =>
    refine ⟨h, by simpa using henum, ?_⟩
    generalize f.type = type at h
    cases h with
    | records h =>
      have htext : ∀ v ∈ vs, v.enumToText = id v := by
        intro v hv
        cases h v hv
        rfl
      rw [List.map_congr_left htext, List.map_id]

/-- A value that can be written as a text is the text of one that can be written as it is. -/
theorem Lawful.exists_enumToText (ha : a.Lawful kinds shape) {f : Field} (hf : f ∈ a.fields)
    (hsingle : f.collection = false) (hstores : a.Stores f.name) {v' : FieldValue α}
    (hv' : (∃ data, IsOf kinds shape data ∧ a.enumsAsText.get data f.name = .ok v')
      ∨ Nested kinds (textField f).type v')
    : ∃ v,
        (if f.type.isEnumeration then v'.textToEnum else v') = v
          ∧
        v.enumToText = v'
          ∧
        ((∃ data, IsOf kinds shape data ∧ a.get data f.name = .ok v) ∨ Nested kinds f.type v) := by
  rcases hv' with ⟨data, hdata, hget⟩ | hnested
  . obtain ⟨v, hv, hfits⟩ := ha.get f hf hsingle hstores data hdata
    rw [enumsAsText_get hv] at hget
    cases hget
    exact ⟨v, (fits_enumToText hfits).2, rfl, .inl ⟨data, hdata, hv⟩⟩
  . -- A nested record stays what it is, since it is no member of an enumeration.
    obtain ⟨hnested, henum, htext⟩ := nested_of_textField hnested
    exact ⟨v', by simp [henum], htext, .inr hnested⟩

theorem Lawful.exists_enumToText_all (ha : a.Lawful kinds shape) {f : Field} (hf : f ∈ a.fields)
    (hmany : f.collection = true) {vs' : List (FieldValue α)}
    (hvs' : (∃ data, IsOf kinds shape data ∧ a.enumsAsText.getAll data f.name = .ok (some vs'))
      ∨ AllNested kinds (textField f).type vs')
    : ∃ vs,
        (if f.type.isEnumeration then vs'.map .textToEnum else vs') = vs
          ∧
        vs.map .enumToText = vs'
          ∧
        ((∃ data, IsOf kinds shape data ∧ a.getAll data f.name = .ok (some vs))
          ∨ AllNested kinds f.type vs) := by
  rcases hvs' with ⟨data, hdata, hget⟩ | hnested
  . obtain ⟨vs, hvs, hfits⟩ := ha.getAll f hf hmany data hdata
    rw [enumsAsText_getAll hvs] at hget
    cases hget
    exact ⟨vs, (fits_enumToText_all hfits).2, rfl, .inl ⟨data, hdata, hvs⟩⟩
  . obtain ⟨hnested, henum, htext⟩ := allNested_of_textField hnested
    exact ⟨vs', by simp [henum], htext, .inr hnested⟩

theorem Lawful.enumsAsText (ha : a.Lawful kinds shape) : a.enumsAsText.Lawful kinds shape := by
  have hstores : ∀ name, a.enumsAsText.Stores name → a.Stores name := by
    intro name hstored hcomputed
    exact hstored hcomputed.enumsAsText
  refine ⟨?_, ha.create, ?_, ?_, ?_, ?_⟩
  . have hnames : (fun f : Field => f.name) ∘ textField = (·.name) := by
      funext f
      exact textField_name f
    rw [enumsAsText_fields, List.map_map, hnames]
    exact ha.names
  . intro f' hf' hsingle hstored data hdata
    rw [enumsAsText_fields] at hf'
    obtain ⟨f, hf, rfl⟩ := List.mem_map.mp hf'
    rw [textField_name] at hstored ⊢
    rw [textField_collection] at hsingle
    obtain ⟨v, hv, hfits⟩ := ha.get f hf hsingle (hstores _ hstored) data hdata
    exact ⟨_, enumsAsText_get hv, (fits_enumToText hfits).1⟩
  . intro f' hf' hsingle hstored data v' hdata hv'
    rw [enumsAsText_fields] at hf'
    obtain ⟨f, hf, rfl⟩ := List.mem_map.mp hf'
    rw [textField_name] at hstored hv' ⊢
    rw [textField_collection] at hsingle
    obtain ⟨v, hwritten, rfl, hv⟩ := ha.exists_enumToText hf hsingle (hstores _ hstored) hv'
    obtain ⟨data', hset, hdata', hread, hothers⟩ :=
      ha.set f hf hsingle (hstores _ hstored) data v hdata hv
    refine ⟨data', ?_, hdata', enumsAsText_get hread, ?_⟩
    . rw [enumsAsText_set ha.names hf, hwritten, hset]
    . intro name hne hstored'
      exact (hothers name hne (hstores name hstored')).enumsAsText
  . intro f' hf' hmany data hdata
    rw [enumsAsText_fields] at hf'
    obtain ⟨f, hf, rfl⟩ := List.mem_map.mp hf'
    rw [textField_name]
    rw [textField_collection] at hmany
    obtain ⟨vs, hvs, hfits⟩ := ha.getAll f hf hmany data hdata
    exact ⟨_, enumsAsText_getAll hvs, (fits_enumToText_all hfits).1⟩
  . intro f' hf' hmany data vs' hdata hvs'
    rw [enumsAsText_fields] at hf'
    obtain ⟨f, hf, rfl⟩ := List.mem_map.mp hf'
    rw [textField_name] at hvs' ⊢
    rw [textField_collection] at hmany
    obtain ⟨vs, hwritten, rfl, hvs⟩ := ha.exists_enumToText_all hf hmany hvs'
    obtain ⟨data', hset, hdata', hread, hothers⟩ := ha.setAll f hf hmany data vs hdata hvs
    refine ⟨data', ?_, hdata', enumsAsText_getAll hread, ?_⟩
    . rw [enumsAsText_setAll ha.names hf, hwritten, hset]
    . intro name hne hstored'
      exact (hothers name hne (hstores name hstored')).enumsAsText

end

theorem LawfulTyped.lawful {kinds : (shape : Shape) → Kind α (types shape)} {shape : Shape}
    {a : Accessor α} (h : LawfulTyped kinds shape a) : a.Lawful kinds shape := by
  induction h with
  | typed hnames hdeclared hlawful hnested =>
    exact typed_lawful hnames hdeclared hlawful hnested
  | enumsAsText _ ih => exact ih.enumsAsText
  | withComputedKey type key _ hname ih => exact ih.withComputedKey type key hname

end Edm.Accessor
