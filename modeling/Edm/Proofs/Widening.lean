import Edm.Accessor.Typed
import Edm.Proofs.Integers

/-!
This module contains the laws of giving a field of integers a wider type. A wider type takes what a
narrower one takes, as the same number, but for the types of integers that it has no conversion
from. This goes for single values and for collections, with null and without, and so for what is
written to the fields of typed records.
-/

namespace Edm

/-! ### Conversions that cover others -/

section

variable {ε β γ δ γ' δ' : Type}

/-- The second conversion takes what the first one takes, as the same, but for what is lacking. -/
structure Covers (f : β → Except ε γ) (g : β → Except ε δ) (same : γ → δ → Prop)
    (lacks : β → Prop) : Prop where
  kept : ∀ b c, f b = .ok c → ¬ lacks b → ∃ d, g b = .ok d ∧ same c d
  lost : ∀ b c, f b = .ok c → lacks b → ∃ failure, g b = .error failure

namespace Covers

variable {f : β → Except ε γ} {g : β → Except ε δ} {same : γ → δ → Prop} {lacks : β → Prop}

theorem of_not_ok (hkept : ∀ b c, f b = .ok c → ¬ lacks b → ∃ d, g b = .ok d ∧ same c d)
    (hlost : ∀ b c, f b = .ok c → lacks b → ∀ d, g b ≠ .ok d) : Covers f g same lacks where
  kept := hkept
  lost := by
    intro b c hf hlacks
    cases hg : g b with
    | error failure => exact ⟨failure, rfl⟩
    | ok d => exact absurd hg (hlost b c hf hlacks d)

theorem not_ok (h : Covers f g same lacks) {b : β} {c : γ} (hf : f b = .ok c) (hlacks : lacks b)
    (d : δ) : g b ≠ .ok d := by
  obtain ⟨failure, hfailure⟩ := h.lost b c hf hlacks
  simp [hfailure]

theorem map (h : Covers f g same lacks) (u : γ → γ') (w : δ → δ')
    : Covers (fun b => u <$> f b) (fun b => w <$> g b)
        (fun c' d' => ∃ c d, same c d ∧ c' = u c ∧ d' = w d) lacks := by
  apply of_not_ok
  . intro b c' hf hlacks
    obtain ⟨c, hc, rfl⟩ := map_eq_ok.mp hf
    obtain ⟨d, hd, hsame⟩ := h.kept b c hc hlacks
    exact ⟨w d, map_eq_ok.mpr ⟨d, hd, rfl⟩, c, d, hsame, rfl, rfl⟩
  . intro b c' hf hlacks d' hg
    obtain ⟨c, hc, _⟩ := map_eq_ok.mp hf
    obtain ⟨d, hd, _⟩ := map_eq_ok.mp hg
    exact h.not_ok hc hlacks d hd

theorem mapM (h : Covers f g same lacks)
    : Covers (List.mapM f) (List.mapM g) (List.Forall₂ same) fun bs => ∃ b ∈ bs, lacks b := by
  apply of_not_ok
  . intro bs cs hf hlacks
    simp only [mapM_eq_ok] at hf ⊢
    induction hf with
    | nil => exact ⟨[], .nil, .nil⟩
    | @cons b c bs cs hb _ ih =>
      obtain ⟨d, hd, hsame⟩ := h.kept b c hb (by simp_all)
      obtain ⟨ds, hds, hsames⟩ := ih (by simp_all)
      exact ⟨d :: ds, .cons hd hds, .cons hsame hsames⟩
  . rintro bs cs hf ⟨b, hb, hlacks⟩ ds hg
    obtain ⟨c, _, hc⟩ := exists_of_forall₂ (mapM_eq_ok.mp hf) hb
    obtain ⟨d, _, hd⟩ := exists_of_forall₂ (mapM_eq_ok.mp hg) hb
    exact h.not_ok hc hlacks d hd

end Covers

end

/-! ### The types of fields -/

variable {α : Type}

namespace Scalar

variable {σ τ : Type} {s : Scalar σ} {t : Scalar τ}

theorem extract_ofSimple_eq_ok {name : String} {default : τ} {toValue : τ → Value}
    {of? : Value → Option τ} {v : FieldValue α} {x : τ}
    : (ofSimple name default toValue of?).extract v = .ok x
        ↔
      ∃ u, v = .simple u ∧ of? u = some x := by
  cases v with
  | simple u =>
    cases hu : of? u with
    | none => simp [extract, ofSimple, hu]
    | some y => simp [extract, ofSimple, hu]
  | null | enum | record => simp [extract, ofSimple]

theorem extract_of_ne {v : FieldValue α} (hv : v ≠ .null)
    : s.extract v
        = match s.ofField? v with
          | some x => .ok x
          | none => .error (.invalidRecord (.notConvertible v.inspect s.name)) := by
  unfold extract
  split
  . contradiction
  . rfl

theorem extract_optional {v : FieldValue α} (hv : v ≠ .null)
    : s.optional.extract v = some <$> s.extract v := by
  rw [extract_of_ne hv, extract_of_ne hv]
  cases hx : s.ofField? v with
  | none => simp [optional, hx]
  | some x => simp [optional, hx]

theorem covers_optional {same : σ → τ → Prop} {lacks : FieldValue α → Prop}
    (h : Covers s.extract t.extract same lacks) (hnull : ¬ lacks .null)
    : Covers s.optional.extract t.optional.extract (Option.Rel same) lacks := by
  have hvalue := h.map some some
  constructor
  . intro v x? hx hlacks
    by_cases hv : v = .null
    . subst hv
      cases hx
      exact ⟨none, rfl, .none⟩
    . rw [extract_optional hv] at hx ⊢
      obtain ⟨y?, hy, x, y, hsame, rfl, rfl⟩ := hvalue.kept v x? hx hlacks
      exact ⟨some y, hy, .some hsame⟩
  . intro v x? hx hlacks
    have hv : v ≠ .null := by
      rintro rfl
      contradiction
    rw [extract_optional hv] at hx ⊢
    exact hvalue.lost v x? hx hlacks

end Scalar

/-- The types of fields of integers, and that of fields of decimals. -/
inductive Width where
  | byte
  | int16
  | int32
  | int64
  | decimal
deriving DecidableEq, Repr

namespace Width

abbrev Number : Width → Type
  | byte => UInt8
  | int16 => Int16
  | int32 => Int32
  | int64 => Int64
  | decimal => Decimal

def scalar : (w : Width) → Scalar w.Number
  | byte => .byte
  | int16 => .int16
  | int32 => .int32
  | int64 => .int64
  | decimal => .decimal

/-- A number is an integer; as a decimal it has no places, and zero has no sign. -/
def Denotes : (w : Width) → w.Number → Int → Prop
  | byte, x, n => x.toNat = n
  | int16, x, n => x.toInt = n
  | int32, x, n => x.toInt = n
  | int64, x, n => x.toInt = n
  | decimal, d, n => d.negative = decide (n < 0) ∧ d.mantissa = n.natAbs ∧ d.scale = 0

def Same (w w' : Width) (x : w.Number) (y : w'.Number) : Prop :=
  ∃ n, w.Denotes x n ∧ w'.Denotes y n

/-- Integers are wider the more bits they have. Decimals are wider than those of 32 bits. -/
def rank : Width → Nat
  | byte => 0
  | int16 => 1
  | int32 => 2
  | int64 => 3
  | decimal => 3

instance : LT Width := ⟨fun w w' => w.rank < w'.rank⟩

instance (w w' : Width) : Decidable (w < w') := inferInstanceAs (Decidable (_ < _))

def sources : Width → List SimpleType
  | byte => [.byte]
  | int16 => [.int16, .byte]
  | int32 => [.int32, .int16, .byte]
  | int64 => [.int64, .int32, .int16]
  | decimal => [.decimal, .int32]

/-- The types of integers from which there is no conversion, although they are narrower. -/
def lacking : Width → List SimpleType
  | byte | int16 | int32 => []
  | int64 => [.byte]
  | decimal => [.byte, .int16]

/-- A value is an integer of a narrower type from which there is no conversion. -/
def Lacks (w : Width) : FieldValue α → Prop
  | .simple u => ∃ t ∈ w.lacking, u.simpleType? = some t
  | _ => False

instance (w : Width) (v : FieldValue α) : Decidable (w.Lacks v) :=
  match v with
  | .simple u => inferInstanceAs (Decidable (∃ t ∈ w.lacking, u.simpleType? = some t))
  | .null | .enum _ | .record _ => inferInstanceAs (Decidable False)

theorem mem_sources_iff {w w' : Width} {t : SimpleType} (h : w < w') (ht : t ∈ w.sources)
    : t ∈ w'.sources ↔ t ∉ w'.lacking := by
  revert t
  revert h
  cases w <;> cases w' <;> decide

theorem ne_decimal {w w' : Width} (h : w < w') : w ≠ decimal := by
  rintro rfl
  cases w' <;> contradiction

theorem exists_source {w : Width} {v : FieldValue α} {x : w.Number}
    (h : w.scalar.extract v = .ok x)
    : ∃ u, v = .simple u ∧ ∃ t ∈ w.sources, u.simpleType? = some t := by
  cases w
  all_goals
    obtain ⟨u, rfl, hu⟩ := Scalar.extract_ofSimple_eq_ok.mp h
    refine ⟨u, rfl, ?_⟩
    split at hu
    all_goals simp_all [sources, Value.simpleType?]

theorem exists_isInteger {w : Width} {u : Value} {t : SimpleType} (hw : w ≠ decimal)
    (ht : t ∈ w.sources) (htype : u.simpleType? = some t) : ∃ bits n, u.IsInteger bits n := by
  cases u with
  | byte n => exact ⟨8, _, .byte n⟩
  | int16 n => exact ⟨16, _, .int16 n⟩
  | int32 n => exact ⟨32, _, .int32 n⟩
  | int64 n => exact ⟨64, _, .int64 n⟩
  | _ =>
    cases htype
    all_goals
      cases w with
      | decimal => contradiction
      | _ => simp [sources] at ht

theorem denotes_int16 {n : Int} (h : FitsIn 16 n) : int16.Denotes (.ofInt n) n := by
  unfold FitsIn at h
  apply Int16.toInt_ofInt_of_le
  all_goals omega

theorem denotes_int32 {n : Int} (h : FitsIn 32 n) : int32.Denotes (.ofInt n) n := by
  rw [fitsIn_32_iff] at h
  apply Int32.toInt_ofInt_of_le
  all_goals omega

theorem denotes_int64 {n : Int} (h : FitsIn 64 n) : int64.Denotes (.ofInt n) n := by
  apply toInt_ofInt_of_fitsIn h

theorem denotes_decimal {n : Int} (h : FitsIn 64 n)
    : decimal.Denotes (.ofInt64 (.ofInt n)) n := by
  simp [Denotes, Decimal.ofInt64, toInt_ofInt_of_fitsIn h]

theorem exists_extract {w : Width} {u : Value} {t : SimpleType} {bits : Nat} {n : Int}
    (hu : u.IsInteger bits n) (ht : t ∈ w.sources) (htype : u.simpleType? = some t)
    : ∃ x, w.scalar.extract (.simple u : FieldValue α) = .ok x ∧ w.Denotes x n := by
  -- A type is converted from itself as it is, and from the others through the integer.
  cases hu with
  | byte m =>
    have hbyte := Value.IsInteger.byte m
    cases htype
    cases w with
    | byte => exact ⟨m, rfl, rfl⟩
    | int16 =>
      refine ⟨_, rfl, denotes_int16 ?_⟩
      have := m.toNat_lt
      unfold FitsIn
      omega
    | int32 => exact ⟨_, rfl, denotes_int32 (hbyte.fitsIn_32 (by decide))⟩
    | int64 | decimal => simp [sources] at ht
  | sbyte m =>
    cases htype
    cases w <;> simp [sources] at ht
  | int16 m =>
    have hint16 := Value.IsInteger.int16 m
    cases htype
    cases w with
    | int16 => exact ⟨m, rfl, rfl⟩
    | int32 => exact ⟨_, rfl, denotes_int32 (hint16.fitsIn_32 (by decide))⟩
    | int64 => exact ⟨_, rfl, denotes_int64 hint16.fitsIn_64⟩
    | byte | decimal => simp [sources] at ht
  | int32 m =>
    have hint32 := Value.IsInteger.int32 m
    cases htype
    cases w with
    | int32 => exact ⟨m, rfl, rfl⟩
    | int64 => exact ⟨_, rfl, denotes_int64 hint32.fitsIn_64⟩
    | decimal => exact ⟨_, rfl, denotes_decimal hint32.fitsIn_64⟩
    | byte | int16 => simp [sources] at ht
  | int64 m =>
    cases htype
    cases w with
    | int64 => exact ⟨m, rfl, rfl⟩
    | byte | int16 | int32 | decimal => simp [sources] at ht

theorem covers_extract {w w' : Width} (h : w < w')
    : Covers (w.scalar.extract (α := α)) w'.scalar.extract (Same w w') w'.Lacks := by
  apply Covers.of_not_ok
  . intro v x hx hlacks
    obtain ⟨u, rfl, t, ht, htype⟩ := exists_source hx
    obtain ⟨bits, n, hu⟩ := exists_isInteger (ne_decimal h) ht htype
    have ht' : t ∈ w'.sources := by
      rw [mem_sources_iff h ht]
      intro hlacking
      exact hlacks ⟨t, hlacking, htype⟩
    obtain ⟨x', hx', hn⟩ := exists_extract hu ht htype
    obtain ⟨y, hy, hn'⟩ := exists_extract hu ht' htype
    rw [hx] at hx'
    cases hx'
    exact ⟨y, hy, n, hn, hn'⟩
  . intro v x hx hlacks y hy
    obtain ⟨u, rfl, t, ht, htype⟩ := exists_source hx
    obtain ⟨_, ⟨⟩, t', ht', htype'⟩ := exists_source hy
    obtain ⟨t'', hlacking, htype''⟩ := hlacks
    rw [htype] at htype' htype''
    cases htype'
    cases htype''
    exact (mem_sources_iff h ht).mp ht' hlacking

theorem not_lacks_null (w : Width) : ¬ w.Lacks (.null : FieldValue α) := id

end Width

/-! ### Fields of typed records -/

/-- A field in an accessor of typed records, and how records are changed by writing to it. -/
structure TypedField (α ρ ν : Type) where
  kind : Kind α ρ
  empty : ρ
  members : List (Member α ρ)
  name : String
  write : ρ → ν → ρ

namespace TypedField

variable {ρ ν : Type} {s : Scalar ν} {data : α} {r : ρ}

def accessor (f : TypedField α ρ ν) : Accessor α := .typed f.kind f.empty f.members

def IsSimple (f : TypedField α ρ ν) (s : Scalar ν) : Prop :=
  ∃ m type get,
    f.members.find? (fun m => m.field.name == f.name) = some m
      ∧
    m.slot = (Member.simple f.name type s get f.write).slot

def IsCollection (f : TypedField α ρ (List ν)) (s : Scalar ν) : Prop :=
  ∃ m type get,
    f.members.find? (fun m => m.field.name == f.name) = some m
      ∧
    m.slot = (Member.simples f.name type s get f.write).slot

theorem set_eq {f : TypedField α ρ ν} (hf : f.IsSimple s) (hr : f.kind.project? data = some r)
    : f.accessor.set data f.name
        = fun v => (fun x => f.kind.inject (f.write r x)) <$> s.extract v := by
  funext v
  obtain ⟨m, type, get, hm, hslot⟩ := hf
  unfold accessor Accessor.typed Accessor.findMember Accessor.projectOrFail
  dsimp
  rw [hm, hr, ok_bind, ok_bind, hslot]
  dsimp [Member.simple, Member.single]
  cases s.extract v <;> rfl

theorem setAll_eq {f : TypedField α ρ (List ν)} (hf : f.IsCollection s)
    (hr : f.kind.project? data = some r)
    : f.accessor.setAll data f.name
        = fun vs => (fun xs => f.kind.inject (f.write r xs)) <$> vs.mapM s.extract := by
  funext vs
  obtain ⟨m, type, get, hm, hslot⟩ := hf
  unfold accessor Accessor.typed Accessor.findMember Accessor.projectOrFail
  dsimp
  rw [hm, hr, ok_bind, ok_bind, hslot]
  dsimp [Member.simples, Member.many]
  cases vs.mapM s.extract <;> rfl

def SameWritten {ρ' ν' : Type} (f : TypedField α ρ ν) (g : TypedField α ρ' ν') (r : ρ) (r' : ρ')
    (same : ν → ν' → Prop) (data data' : α) : Prop :=
  ∃ x y,
    same x y ∧ data = f.kind.inject (f.write r x) ∧ data' = g.kind.inject (g.write r' y)

end TypedField

/--
The second type takes what the first one takes, as the same, but for what is lacking: as a single
value, as the items of a collection, and when these are written to fields of records.
-/
structure Widens {σ τ : Type} (s : Scalar σ) (t : Scalar τ) (same : σ → τ → Prop)
    (lacks : FieldValue α → Prop) : Prop where
  value : Covers s.extract t.extract same lacks
  items : Covers (List.mapM s.extract) (List.mapM t.extract) (List.Forall₂ same)
    fun vs => ∃ v ∈ vs, lacks v
  field : ∀ {ρ ρ' : Type} {f : TypedField α ρ σ} {g : TypedField α ρ' τ},
    f.IsSimple s → g.IsSimple t →
      ∀ {data data' r r'}, f.kind.project? data = some r → g.kind.project? data' = some r' →
        Covers (f.accessor.set data f.name) (g.accessor.set data' g.name)
          (f.SameWritten g r r' same) lacks
  collection : ∀ {ρ ρ' : Type} {f : TypedField α ρ (List σ)} {g : TypedField α ρ' (List τ)},
    f.IsCollection s → g.IsCollection t →
      ∀ {data data' r r'}, f.kind.project? data = some r → g.kind.project? data' = some r' →
        Covers (f.accessor.setAll data f.name) (g.accessor.setAll data' g.name)
          (f.SameWritten g r r' (List.Forall₂ same)) fun vs => ∃ v ∈ vs, lacks v

theorem Covers.widens {σ τ : Type} {s : Scalar σ} {t : Scalar τ} {same : σ → τ → Prop}
    {lacks : FieldValue α → Prop} (h : Covers s.extract t.extract same lacks)
    : Widens s t same lacks where
  value := h
  items := h.mapM
  field := by
    intro ρ ρ' f g hf hg data data' r r' hr hr'
    rw [TypedField.set_eq hf hr, TypedField.set_eq hg hr']
    apply h.map
  collection := by
    intro ρ ρ' f g hf hg data data' r r' hr hr'
    rw [TypedField.setAll_eq hf hr, TypedField.setAll_eq hg hr']
    apply h.mapM.map

/--
A field of integers or decimals takes, as the same number, all that a field of a narrower type
takes, with null and without, but for the integers of `lacking` types, which it refuses. Nothing is
lacking up to 32 bits.
-/
theorem Width.widens_fields {w w' : Width} (h : w < w')
    : Widens w.scalar w'.scalar (w.Same w') (w'.Lacks : FieldValue α → Prop)
        ∧
      Widens w.scalar.optional w'.scalar.optional (Option.Rel (w.Same w'))
        (w'.Lacks : FieldValue α → Prop) := by
  constructor
  . exact (covers_extract h).widens
  . exact (Scalar.covers_optional (covers_extract h) w'.not_lacks_null).widens

/-- Bytes are taken as integers of 32 bits, but neither as integers of 64 bits nor as decimals. -/
theorem Width.not_widens_byte
    : Scalar.int32.extract (.simple (.byte 7) : FieldValue Unit) = .ok 7
        ∧
      Scalar.int64.extract (.simple (.byte 7) : FieldValue Unit)
        = .error (.invalidRecord (.notConvertible "Simple(Byte(7))" "i64"))
        ∧
      Scalar.decimal.extract (.simple (.byte 7) : FieldValue Unit)
        = .error (.invalidRecord
            (.notConvertible "Simple(Byte(7))" "rust_decimal::decimal::Decimal")) := by
  exact ⟨rfl, rfl, rfl⟩

/-! ### Counters that got wider -/

namespace Counters

abbrev Contents := Int32 ⊕ Int64

def narrow : TypedField Contents Int32 Int32 where
  kind := ⟨"Counter", .inl, Sum.getLeft?, fun _ => rfl⟩
  empty := 0
  members := [Member.simple "Count" .int32 .int32 id fun _ n => n]
  name := "Count"
  write _ n := n

def wide : TypedField Contents Int64 Int64 where
  kind := ⟨"Counter", .inr, Sum.getRight?, fun _ => rfl⟩
  empty := 0
  members := [Member.simple "Count" .int64 .int64 id fun _ n => n]
  name := "Count"
  write _ n := n

theorem isSimple_narrow : narrow.IsSimple .int32 := ⟨_, .int32, id, rfl, rfl⟩

theorem isSimple_wide : wide.IsSimple .int64 := ⟨_, .int64, id, rfl, rfl⟩

/-- Of what a counter of 32 bits takes, one of 64 bits takes the least integer, and no byte. -/
theorem widens_fields_counter
    : Width.int32 < Width.int64
        ∧
      narrow.accessor.set (.inl 0) "Count" (.simple (.int32 (-2147483648)))
        = .ok (.inl (-2147483648))
        ∧
      (∃ n : Int64,
        wide.accessor.set (.inr 0) "Count" (.simple (.int32 (-2147483648))) = .ok (.inr n)
          ∧
        n.toInt = -2147483648)
        ∧
      narrow.accessor.set (.inl 0) "Count" (.simple (.byte 7)) = .ok (.inl 7)
        ∧
      (∃ failure, wide.accessor.set (.inr 0) "Count" (.simple (.byte 7)) = .error failure)
        ∧
      [.null, .simple (.int16 7)].mapM (Scalar.int32.optional.extract (α := Contents))
        = .ok [none, some 7]
        ∧
      ∃ ns,
        [.null, .simple (.int16 7)].mapM (Scalar.int64.optional.extract (α := Contents)) = .ok ns
          ∧
        List.Forall₂ (Option.Rel (Width.int32.Same .int64)) [none, some 7] ns := by
  have hwider : Width.int32 < Width.int64 := by decide
  obtain ⟨hvalue, hoptional⟩ := Width.widens_fields (α := Contents) hwider
  have hnarrow : narrow.kind.project? (.inl 0) = some 0 := rfl
  have hwide : wide.kind.project? (.inr 0) = some 0 := rfl
  have hfield := hvalue.field isSimple_narrow isSimple_wide hnarrow hwide
  refine ⟨hwider, rfl, ?_, rfl, hfield.lost _ _ rfl (by decide), rfl, ?_⟩
  . obtain ⟨_, hset, x, n, ⟨m, rfl, hn⟩, hwritten, rfl⟩ :=
      hfield.kept (.simple (.int32 (-2147483648))) _ rfl (by decide)
    obtain rfl : -2147483648 = x := Sum.inl.inj hwritten
    exact ⟨n, hset, hn⟩
  . exact hoptional.items.kept _ _ rfl (by decide)

end Counters

end Edm
