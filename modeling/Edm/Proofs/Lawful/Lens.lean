import Edm.Proofs.Lawful

/-!
This module contains the ways to declare lawful fields. A field is lawful if its getter gives what
its setter was given, and its setter is seen by no other getter.
-/

namespace Edm.Member

variable {α τ : Type} {types : Shape → Type}
variable {kinds : (shape : Shape) → Kind α (types shape)} {members : List (Member α τ)}
  {name : String}

theorem lawful_simple {ν : Type} {type : SimpleType} {s : Scalar ν} {get : τ → ν} {set : τ → ν → τ}
    (hscalar : ∀ x, s.extract (.ofValue (s.toValue x) : FieldValue α) = .ok x)
    (hget : ∀ t x, get (set t x) = x)
    (hothers : ∀ t x, ∀ m ∈ members, m.field.name ≠ name → m.slot.Agrees t (set t x))
    : (Member.simple name type s get set).Lawful members where
  single := by
    rintro _ _ ⟨⟩ t₀ t
    dsimp
    refine ⟨set t (get t₀), ?_, by rw [hget], hothers t (get t₀)⟩
    rw [hscalar]
    rfl
  many := by
    rintro _ _ ⟨⟩

theorem keepsNested_simple {ν : Type} {type : SimpleType} {s : Scalar ν} {get : τ → ν}
    {set : τ → ν → τ} : (Member.simple name type s get set).KeepsNested kinds members where
  single := by
    rintro _ _ ⟨⟩ v ⟨⟩
  many := by
    rintro _ _ ⟨⟩

theorem extract_inject (k : Kind α τ) (shape : Shape) (t : τ)
    : k.extract (.record ⟨shape, k.inject t⟩) = .ok (some t) := by
  unfold Kind.extract
  dsimp
  rw [k.project?_inject]

section

variable {shape : Shape} {get : τ → Option (types shape)} {set : τ → Option (types shape) → τ}

theorem keeps_record (hget : ∀ t x, get (set t x) = x)
    (hothers : ∀ t x, ∀ m ∈ members, m.field.name ≠ name → m.slot.Agrees t (set t x))
    {get' : τ → FieldValue α} {set' : τ → FieldValue α → Except Failure τ}
    (hslot : (Member.record name shape (kinds shape) get set).slot = .single get' set')
    {v : FieldValue α} (hv : v = .null ∨ Nested kinds (.record shape) v)
    : (Member.record name shape (kinds shape) get set).Keeps members get' set' v := by
  cases hslot
  intro t
  dsimp
  rcases hv with rfl | ⟨⟨x, rfl⟩⟩
  . exact ⟨set t none, rfl, by rw [hget], hothers t none⟩
  . refine ⟨set t (some x), ?_, by rw [hget], hothers t (some x)⟩
    rw [extract_inject]
    rfl

theorem lawful_record (hget : ∀ t x, get (set t x) = x)
    (hothers : ∀ t x, ∀ m ∈ members, m.field.name ≠ name → m.slot.Agrees t (set t x))
    : (Member.record name shape (kinds shape) get set).Lawful members where
  single := by
    rintro _ _ ⟨⟩ t₀
    apply keeps_record hget hothers rfl
    dsimp
    split
    . exact .inl rfl
    . next x _ => exact .inr (.record ⟨x, rfl⟩)
  many := by
    rintro _ _ ⟨⟩

theorem keepsNested_record (hget : ∀ t x, get (set t x) = x)
    (hothers : ∀ t x, ∀ m ∈ members, m.field.name ≠ name → m.slot.Agrees t (set t x))
    : (Member.record name shape (kinds shape) get set).KeepsNested kinds members where
  single := by
    intro get' set' hslot v hv
    exact keeps_record hget hothers hslot (.inr hv)
  many := by
    rintro _ _ ⟨⟩

end

theorem mapM_map_ok {ε β γ δ : Type} {f : γ → Except ε δ} {g : β → γ} {k : β → δ}
    (h : ∀ b, f (g b) = .ok (k b)) (bs : List β) : (bs.map g).mapM f = .ok (bs.map k) := by
  rw [mapM_eq_ok, List.forall₂_map_left_iff, List.forall₂_map_right_iff, List.forall₂_same]
  intro b _
  exact h b

theorem lawful_simples {ν : Type} {type : SimpleType} {s : Scalar ν} {get : τ → List ν}
    {set : τ → List ν → τ}
    (hscalar : ∀ x, s.extract (.ofValue (s.toValue x) : FieldValue α) = .ok x)
    (hget : ∀ t xs, get (set t xs) = xs)
    (hothers : ∀ t xs, ∀ m ∈ members, m.field.name ≠ name → m.slot.Agrees t (set t xs))
    : (Member.simples name type s get set).Lawful members where
  single := by
    rintro _ _ ⟨⟩
  many := by
    rintro _ _ ⟨⟩ t₀ t
    dsimp
    refine ⟨set t (get t₀), ?_, by rw [hget], hothers t (get t₀)⟩
    rw [mapM_map_ok hscalar, List.map_id']
    rfl

theorem keepsNested_simples {ν : Type} {type : SimpleType} {s : Scalar ν} {get : τ → List ν}
    {set : τ → List ν → τ}
    : (Member.simples name type s get set).KeepsNested kinds members where
  single := by
    rintro _ _ ⟨⟩
  many := by
    rintro _ _ ⟨⟩ vs ⟨⟩

section

variable {shape : Shape} {get : τ → List (types shape)} {set : τ → List (types shape) → τ}

theorem exists_of_allNested {vs : List (FieldValue α)} (h : AllNested kinds (.record shape) vs)
    : ∃ xs : List (types shape), vs = xs.map fun x => .record ⟨shape, (kinds shape).inject x⟩ := by
  cases h with
  | records h =>
    induction vs with
    | nil => exact ⟨[], rfl⟩
    | cons v vs ih =>
      obtain ⟨xs, rfl⟩ := ih fun v hv => h v (by simp [hv])
      obtain ⟨x, rfl⟩ := h v (by simp)
      exact ⟨x :: xs, rfl⟩

theorem keeps_records (hget : ∀ t xs, get (set t xs) = xs)
    (hothers : ∀ t xs, ∀ m ∈ members, m.field.name ≠ name → m.slot.Agrees t (set t xs))
    {get' : τ → List (FieldValue α)} {set' : τ → List (FieldValue α) → Except Failure τ}
    (hslot : (Member.records name shape (kinds shape) get set).slot = .many get' set')
    {vs : List (FieldValue α)} (hvs : AllNested kinds (.record shape) vs)
    : (Member.records name shape (kinds shape) get set).Keeps members get' set' vs := by
  cases hslot
  intro t
  obtain ⟨xs, rfl⟩ := exists_of_allNested hvs
  dsimp
  refine ⟨set t xs, ?_, by rw [hget], hothers t xs⟩
  rw [mapM_map_ok (extract_inject (kinds shape) shape), ok_bind, List.filterMap_map]
  simp [pure, Except.pure]

theorem lawful_records (hget : ∀ t xs, get (set t xs) = xs)
    (hothers : ∀ t xs, ∀ m ∈ members, m.field.name ≠ name → m.slot.Agrees t (set t xs))
    : (Member.records name shape (kinds shape) get set).Lawful members where
  single := by
    rintro _ _ ⟨⟩
  many := by
    rintro _ _ ⟨⟩ t₀
    apply keeps_records hget hothers rfl
    constructor
    intro v hv
    obtain ⟨x, _, rfl⟩ := List.mem_map.mp hv
    exact .record ⟨x, rfl⟩

theorem keepsNested_records (hget : ∀ t xs, get (set t xs) = xs)
    (hothers : ∀ t xs, ∀ m ∈ members, m.field.name ≠ name → m.slot.Agrees t (set t xs))
    : (Member.records name shape (kinds shape) get set).KeepsNested kinds members where
  single := by
    rintro _ _ ⟨⟩
  many := by
    intro get' set' hslot vs hvs
    exact keeps_records hget hothers hslot hvs

end

section

variable {m : Member α τ} {members' : List (Member α τ)}

theorem Lawful.notNull (h : m.Lawful members) : m.notNull.Lawful members where
  single := h.single
  many := h.many

theorem KeepsNested.notNull (h : m.KeepsNested kinds members)
    : m.notNull.KeepsNested kinds members where
  single := h.single
  many := h.many

theorem Keeps.mono {ν : Type} {get : τ → ν} {set : τ → ν → Except Failure τ} {v : ν}
    (h : m.Keeps members get set v) (hsub : ∀ m ∈ members', m ∈ members)
    : m.Keeps members' get set v := by
  intro t
  obtain ⟨t', hset, hget, hothers⟩ := h t
  exact ⟨t', hset, hget, fun m hm => hothers m (hsub m hm)⟩

theorem Lawful.mono (h : m.Lawful members) (hsub : ∀ m ∈ members', m ∈ members)
    : m.Lawful members' where
  single := fun get set hslot t => (h.single get set hslot t).mono hsub
  many := fun get set hslot t => (h.many get set hslot t).mono hsub

theorem KeepsNested.mono (h : m.KeepsNested kinds members) (hsub : ∀ m ∈ members', m ∈ members)
    : m.KeepsNested kinds members' where
  single := fun get set hslot v hv => (h.single get set hslot v hv).mono hsub
  many := fun get set hslot vs hvs => (h.many get set hslot vs hvs).mono hsub

end

end Edm.Member
