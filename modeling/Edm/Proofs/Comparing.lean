import Edm.Value

/-!
This module contains the laws of the order of values. Values are told apart by what they are
compared as, and each kind of comparison is an order of its own. Numbers are the exception: they are
compared exactly or as doubles, depending on what they are compared with, and this is an order as
long as doubles keep the order of the numbers.
-/

namespace Edm

/-! ### Orders -/

section

variable {β : Type} {cmp : β → β → Ordering} [Std.TransCmp cmp] {x y z : β}

theorem isLE_of_transCmp (hxy : (cmp x y).isLE = true) (hyz : (cmp y z).isLE = true)
    : (cmp x z).isLE = true ∧ (cmp x z = .eq → cmp x y = .eq ∧ cmp y z = .eq) := by
  refine ⟨Std.TransCmp.isLE_trans hxy hyz, ?_⟩
  intro heq
  have hswap : cmp z x = (cmp x z).swap := Std.OrientedCmp.eq_swap
  have hzx : (cmp z x).isLE = true := by
    rw [hswap, heq]
    rfl
  constructor
  . exact Std.OrientedCmp.isLE_antisymm hxy (Std.TransCmp.isLE_trans hyz hzx)
  . exact Std.OrientedCmp.isLE_antisymm hyz (Std.TransCmp.isLE_trans hzx hxy)

end

theorem transCmp_of_eq {β γ : Type} {cmp : β → β → Ordering} {cmp' : γ → γ → Ordering}
    [Std.TransCmp cmp'] {f : β → γ} (h : ∀ x y, cmp x y = cmp' (f x) (f y)) : Std.TransCmp cmp where
  eq_swap := by
    intro x y
    rw [h, h]
    exact Std.OrientedCmp.eq_swap
  isLE_trans := by
    intro x y z
    rw [h, h, h]
    exact Std.TransCmp.isLE_trans

instance : Std.TransCmp Date.order :=
  inferInstanceAs (Std.TransCmp (compareLex (compareOn Date.year)
    (compareLex (compareOn Date.month) (compareOn Date.day))))

instance : Std.TransCmp TimeOfDay.order :=
  inferInstanceAs (Std.TransCmp
    (compareLex (compareOn TimeOfDay.seconds) (compareOn TimeOfDay.nanos)))

instance : Std.TransCmp DateTime.order :=
  have : Std.TransCmp fun s t : DateTime => s.date.order t.date := transCmp_of_eq fun _ _ => rfl
  have : Std.TransCmp fun s t : DateTime => s.time.order t.time := transCmp_of_eq fun _ _ => rfl
  inferInstanceAs (Std.TransCmp (compareLex _ _))

instance : Std.TransCmp Guid.order :=
  inferInstanceAs (Std.TransCmp (compareOn fun g : Guid => g.value.toNat))

/-! ### Floats -/

namespace Ieee

open Float.Model (UnpackedFloat)

/-- The place of a float among all floats: its sign, its exponent and its mantissa. -/
def rank : UnpackedFloat → Int × Int × Int
  | .infinity .negative => (-2, 0, 0)
  | .finite .negative m e _ => (-1, -e, -m)
  | .zero _ => (0, 0, 0)
  | .finite .positive m e _ => (1, e, m)
  | .infinity .positive => (2, 0, 0)
  | .notANumber => (3, 0, 0)

def rankOrder : Int × Int × Int → Int × Int × Int → Ordering :=
  compareLex (compareOn (·.1)) (compareLex (compareOn (·.2.1)) (compareOn (·.2.2)))

instance : Std.TransCmp rankOrder :=
  inferInstanceAs (Std.TransCmp (compareLex _ (compareLex _ _)))

theorem compare_neg (a b : Int) : compare (-a) (-b) = (compare a b).swap := by
  rw [Int.compare_swap, Int.compare_eq_ite_lt, Int.compare_eq_ite_lt]
  simp only [Int.neg_lt_neg_iff]

theorem compare_natCast (m n : Nat) : compare (m : Int) n = compare m n := by
  rw [Int.compare_eq_ite_lt, Nat.compare_eq_ite_lt]
  simp only [Int.ofNat_lt]

theorem compare_eq_rankOrder (a b : UnpackedFloat)
    : (a.compare b).getD (compare a.isNaN b.isNaN) = rankOrder (rank a) (rank b) := by
  rcases a with (_ | _) | _ | (_ | _) | ⟨_ | _, m, e, _⟩ <;>
    rcases b with (_ | _) | _ | (_ | _) | ⟨_ | _, n, f, _⟩ <;> try rfl
  . change ((compare e f).then (compare m n)).swap
      = (compare (-e) (-f)).then (compare (-(m : Int)) (-n))
    rw [compare_neg, compare_neg, compare_natCast, Ordering.swap_then]
  . change (compare e f).then (compare m n) = (compare e f).then (compare (m : Int) n)
    rw [compare_natCast]

theorem compare_swap (a b : UnpackedFloat) : b.compare a = (a.compare b).map Ordering.swap := by
  rcases a with (_ | _) | _ | (_ | _) | ⟨_ | _, m, e, _⟩ <;>
    rcases b with (_ | _) | _ | (_ | _) | ⟨_ | _, n, f, _⟩ <;> try rfl
  . change some ((compare f e).then (compare n m)).swap
      = some ((compare e f).then (compare m n)).swap.swap
    rw [Ordering.swap_swap, Ordering.swap_then, Int.compare_swap, Nat.compare_swap]
  . change some ((compare f e).then (compare n m)) = some ((compare e f).then (compare m n)).swap
    rw [Ordering.swap_then, Int.compare_swap, Nat.compare_swap]

theorem lt_iff {x y : Float} : x < y ↔ x.toModel.unpack.compare y.toModel.unpack = some .lt := by
  change decide (x.toModel < y.toModel) = true ↔ _
  rw [decide_eq_true_iff]
  change (x.toModel.unpack.compare y.toModel.unpack == some .lt) = true ↔ _
  exact beq_iff_eq

theorem order_eq_rankOrder (x y : Float)
    : order x y = rankOrder (rank x.toModel.unpack) (rank y.toModel.unpack) := by
  have heq : (x == y) = (x.toModel.unpack.compare y.toModel.unpack == some .eq) := rfl
  rw [← compare_eq_rankOrder]
  unfold order
  simp only [heq, lt_iff, compare_swap x.toModel.unpack y.toModel.unpack]
  cases x.toModel.unpack.compare y.toModel.unpack with
  | none => rfl
  | some o => cases o <;> rfl

instance : Std.TransCmp order := transCmp_of_eq order_eq_rankOrder

end Ieee

/-! ### Numbers -/

instance : Std.TransCmp Decimal.order where
  eq_swap := by
    intro a b
    unfold Decimal.order
    exact Std.OrientedOrd.eq_swap
  isLE_trans := by
    intro a b c hab hbc
    unfold Decimal.order at hab hbc ⊢
    rw [Int.isLE_compare] at hab hbc ⊢
    -- Both bounds are brought to the places of all three decimals.
    have hpos := Int.ofNat_lt.mpr (tenPow_pos b.scale)
    have hleft := Int.mul_le_mul_of_nonneg_right hab (Int.natCast_nonneg (tenPow c.scale))
    have hright := Int.mul_le_mul_of_nonneg_right hbc (Int.natCast_nonneg (tenPow a.scale))
    apply Int.le_of_mul_le_mul_right _ hpos
    calc
      a.signedMantissa * tenPow c.scale * tenPow b.scale
          = a.signedMantissa * tenPow b.scale * tenPow c.scale := Int.mul_right_comm _ _ _
      _ ≤ b.signedMantissa * tenPow a.scale * tenPow c.scale := hleft
      _ = b.signedMantissa * tenPow c.scale * tenPow a.scale := Int.mul_right_comm _ _ _
      _ ≤ c.signedMantissa * tenPow b.scale * tenPow a.scale := hright
      _ = c.signedMantissa * tenPow a.scale * tenPow b.scale := Int.mul_right_comm _ _ _

theorem Decimal.order_ofInt64 (m n : Int64)
    : (ofInt64 m).order (ofInt64 n) = compare m.toInt n.toInt := by
  have hsigned : ∀ n : Int64, (ofInt64 n).signedMantissa = n.toInt := by
    intro n
    unfold signedMantissa ofInt64
    dsimp only
    split
    . next h =>
      rw [decide_eq_true_iff] at h
      omega
    . next h =>
      rw [decide_eq_true_iff] at h
      omega
  unfold order
  rw [hsigned, hsigned]
  change compare (m.toInt * 1) (n.toInt * 1) = compare m.toInt n.toInt
  rw [Int.mul_one, Int.mul_one]

namespace Numeric

def decimal? : Numeric → Option Decimal
  | .integer n => some (.ofInt64 n)
  | .decimal d => some d
  | .float _ => none

def RoundsApart (m n : Numeric) : Prop := m.order n ≠ Ieee.order m.toFloat n.toFloat

instance (m n : Numeric) : Decidable (RoundsApart m n) := inferInstanceAs (Decidable (_ ≠ _))

variable {l m n : Numeric}

theorem order_of_decimal? {c d : Decimal} (hm : m.decimal? = some c) (hn : n.decimal? = some d)
    : m.order n = c.order d := by
  cases m with
  | float x => cases hm
  | integer j =>
    cases hm
    cases n with
    | float y => cases hn
    | integer k =>
      cases hn
      exact (Decimal.order_ofInt64 j k).symm
    | decimal d =>
      cases hn
      rfl
  | decimal c =>
    cases hm
    cases n with
    | float y => cases hn
    | integer k =>
      cases hn
      rfl
    | decimal d =>
      cases hn
      rfl

theorem order_of_float (h : m.decimal? = none ∨ n.decimal? = none)
    : m.order n = Ieee.order m.toFloat n.toFloat := by
  cases m with
  | float x => cases n <;> rfl
  | integer j =>
    cases n with
    | float y => rfl
    | _ => rcases h with h | h <;> cases h
  | decimal c =>
    cases n with
    | float y => rfl
    | _ => rcases h with h | h <;> cases h

theorem order_swap (m n : Numeric) : n.order m = (m.order n).swap := by
  cases hm : m.decimal? with
  | none =>
    rw [order_of_float (.inl hm), order_of_float (.inr hm)]
    exact Std.OrientedCmp.eq_swap
  | some c =>
    cases hn : n.decimal? with
    | none =>
      rw [order_of_float (.inl hn), order_of_float (.inr hn)]
      exact Std.OrientedCmp.eq_swap
    | some d =>
      rw [order_of_decimal? hm hn, order_of_decimal? hn hm]
      exact Std.OrientedCmp.eq_swap

theorem RoundsApart.symm (h : m.RoundsApart n) : n.RoundsApart m := by
  have hswap : Ieee.order n.toFloat m.toFloat = (Ieee.order m.toFloat n.toFloat).swap :=
    Std.OrientedCmp.eq_swap
  unfold RoundsApart at h ⊢
  rw [order_swap, hswap]
  intro heq
  exact h (Ordering.swap_inj.mp heq)

theorem isLE_order (h : l.decimal? = none ∨ m.decimal? = none ∨ n.decimal? = none →
      ¬ l.RoundsApart m ∧ ¬ m.RoundsApart n ∧ ¬ l.RoundsApart n)
    (hlm : (l.order m).isLE = true) (hmn : (m.order n).isLE = true)
    : (l.order n).isLE = true ∧ (l.order n = .eq → l.order m = .eq ∧ m.order n = .eq) := by
  by_cases hfloat : l.decimal? = none ∨ m.decimal? = none ∨ n.decimal? = none
  . obtain ⟨hl, hm, hn⟩ := h hfloat
    unfold RoundsApart at hl hm hn
    rw [Decidable.not_not.mp hl] at hlm ⊢
    rw [Decidable.not_not.mp hm] at hmn ⊢
    rw [Decidable.not_not.mp hn]
    exact isLE_of_transCmp hlm hmn
  . simp only [not_or, Option.ne_none_iff_exists'] at hfloat
    obtain ⟨⟨b, hb⟩, ⟨c, hc⟩, ⟨d, hd⟩⟩ := hfloat
    rw [order_of_decimal? hb hc] at hlm ⊢
    rw [order_of_decimal? hc hd] at hmn ⊢
    rw [order_of_decimal? hb hd]
    exact isLE_of_transCmp hlm hmn

end Numeric

/-! ### What values are compared as -/

inductive Family where
  | boolean
  | text
  | moment
  | time
  | guid
  | binary
  | number
deriving DecidableEq

namespace Family

def Carrier : Family → Type
  | boolean => Bool
  | text => String
  | moment => DateTime
  | time => TimeOfDay
  | guid => Guid
  | binary => List UInt8
  | number => Numeric

def order : (f : Family) → f.Carrier → f.Carrier → Ordering
  | boolean => fun a b => compare (α := Bool) a b
  | text => fun a b => compare (α := String) a b
  | moment => DateTime.order
  | time => TimeOfDay.order
  | guid => Guid.order
  | binary => fun a b => compare (α := List UInt8) a b
  | number => Numeric.order

theorem transCmp {f : Family} (h : f ≠ number) : Std.TransCmp f.order := by
  cases f with
  | boolean => exact inferInstanceAs (Std.TransCmp (compare (α := Bool)))
  | text => exact inferInstanceAs (Std.TransCmp (compare (α := String)))
  | moment => exact inferInstanceAs (Std.TransCmp DateTime.order)
  | time => exact inferInstanceAs (Std.TransCmp TimeOfDay.order)
  | guid => exact inferInstanceAs (Std.TransCmp Guid.order)
  | binary => exact inferInstanceAs (Std.TransCmp (compare (α := List UInt8)))
  | number => exact absurd rfl h

theorem order_swap (f : Family) (v w : f.Carrier) : f.order w v = (f.order v w).swap := by
  by_cases h : f = number
  . subst h
    exact Numeric.order_swap v w
  . have := transCmp h
    exact Std.OrientedCmp.eq_swap

theorem order_self (f : Family) (v : f.Carrier) : f.order v v = .eq := by
  have h := f.order_swap v v
  cases horder : f.order v v with
  | eq => rfl
  | lt | gt =>
    rw [horder] at h
    cases h

end Family

inductive Comparand where
  | null
  | of (f : Family) (v : f.Carrier)

namespace Comparand

def order? : Comparand → Comparand → Option Ordering
  | null, null => some .eq
  | null, of .. => some .lt
  | of .., null => some .gt
  | of f v, of g w => if h : g = f then some (f.order v (h ▸ w)) else none

theorem order?_of (f : Family) (v w : f.Carrier) : (of f v).order? (of f w) = some (f.order v w) :=
  dif_pos rfl

theorem order?_of_ne {f g : Family} (h : f ≠ g) (v : f.Carrier) (w : g.Carrier)
    : (of f v).order? (of g w) = none :=
  dif_neg h.symm

theorem exists_of_order?_isLE {f : Family} {v : f.Carrier} {b : Comparand} {o : Ordering}
    (h : (of f v).order? b = some o) (ho : o.isLE = true)
    : ∃ w, b = of f w ∧ o = f.order v w := by
  cases b with
  | null =>
    cases h
    cases ho
  | of g w =>
    by_cases heq : f = g
    . subst heq
      rw [order?_of] at h
      cases h
      exact ⟨w, rfl, rfl⟩
    . rw [order?_of_ne heq] at h
      cases h

theorem order?_swap (a b : Comparand) : b.order? a = (a.order? b).map Ordering.swap := by
  cases a with
  | null => cases b <;> rfl
  | of f v =>
    cases b with
    | null => rfl
    | of g w =>
      by_cases heq : f = g
      . subst heq
        rw [order?_of, order?_of, f.order_swap]
        rfl
      . rw [order?_of_ne heq, order?_of_ne (Ne.symm heq)]
        rfl

theorem order?_self (a : Comparand) : a.order? a = some .eq := by
  cases a with
  | null => rfl
  | of f v => rw [order?_of, f.order_self]

end Comparand

namespace Value

def comparand : Value → Comparand
  | .null => .null
  | .boolean b => .of .boolean b
  | .string s => .of .text s
  | .dateTime t => .of .moment t
  | .dateTimeOffset t => .of .moment t.utc
  | .time t => .of .time t
  | .guid g => .of .guid g
  | .binary bytes => .of .binary bytes
  | .byte n => .of .number (.integer (.ofInt n.toNat))
  | .sbyte n => .of .number (.integer (.ofInt n.toInt))
  | .int16 n => .of .number (.integer (.ofInt n.toInt))
  | .int32 n => .of .number (.integer (.ofInt n.toInt))
  | .int64 n => .of .number (.integer n)
  | .single x => .of .number (.float (Ieee.widen x))
  | .double x => .of .number (.float x)
  | .decimal d => .of .number (.decimal d)

theorem order?_eq (a b : Value) : a.order? b = a.comparand.order? b.comparand := by
  cases a <;> cases b <;> rfl

/-- The order goes on from the first value to the last one, and only equal values are equal. -/
def Chained (a b c : Value) : Prop :=
  ∀ o p, a.order? b = some o → b.order? c = some p → o.isLE = true → p.isLE = true →
    ∃ q, a.order? c = some q ∧ q.isLE = true ∧ (q = .eq → o = .eq ∧ p = .eq)

def isFloat : Value → Bool
  | .single _ | .double _ => true
  | _ => false

def RoundsApart (a b : Value) : Prop :=
  ∃ m ∈ a.numeric?, ∃ n ∈ b.numeric?, m.RoundsApart n

instance (a b : Value) : Decidable (a.RoundsApart b) :=
  inferInstanceAs (Decidable (∃ m ∈ a.numeric?, ∃ n ∈ b.numeric?, m.RoundsApart n))

variable {a b c : Value}

theorem RoundsApart.symm (h : a.RoundsApart b) : b.RoundsApart a := by
  obtain ⟨m, hm, n, hn, h⟩ := h
  exact ⟨n, hn, m, hm, h.symm⟩

theorem numeric?_of_comparand {n : Numeric} (h : a.comparand = .of .number n)
    : a.numeric? = some n := by
  cases a <;> cases h <;> rfl

theorem isFloat_of_comparand {n : Numeric} (h : a.comparand = .of .number n)
    (hn : n.decimal? = none) : a.isFloat = true := by
  cases a <;> cases h <;> first | rfl | cases hn

theorem chained (h : a.isFloat = true ∨ b.isFloat = true ∨ c.isFloat = true →
      ¬ a.RoundsApart b ∧ ¬ b.RoundsApart c ∧ ¬ a.RoundsApart c)
    : a.Chained b c := by
  intro o p hab hbc ho hp
  rw [order?_eq] at hab hbc ⊢
  cases ha : a.comparand with
  | null =>
    rw [ha] at hab
    cases hc : c.comparand with
    | of g x => exact ⟨.lt, rfl, rfl, nofun⟩
    | null =>
      rw [hc] at hbc
      refine ⟨.eq, rfl, rfl, fun _ => ?_⟩
      -- Nothing but null comes before null.
      cases hb : b.comparand with
      | null =>
        rw [hb] at hab hbc
        cases hab
        cases hbc
        exact ⟨rfl, rfl⟩
      | of g w =>
        rw [hb] at hbc
        cases hbc
        cases hp
  | of f v =>
    rw [ha] at hab
    obtain ⟨w, hb, rfl⟩ := Comparand.exists_of_order?_isLE hab ho
    rw [hb] at hbc
    obtain ⟨x, hc, rfl⟩ := Comparand.exists_of_order?_isLE hbc hp
    rw [hc, Comparand.order?_of]
    refine ⟨_, rfl, ?_⟩
    by_cases hf : f = .number
    . subst hf
      apply Numeric.isLE_order _ ho hp
      intro hfloat
      have hapart := h (hfloat.imp (isFloat_of_comparand ha)
        (Or.imp (isFloat_of_comparand hb) (isFloat_of_comparand hc)))
      have ha' := numeric?_of_comparand ha
      have hb' := numeric?_of_comparand hb
      have hc' := numeric?_of_comparand hc
      exact ⟨fun hr => hapart.1 ⟨_, ha', _, hb', hr⟩,
        fun hr => hapart.2.1 ⟨_, hb', _, hc', hr⟩,
        fun hr => hapart.2.2 ⟨_, ha', _, hc', hr⟩⟩
    . have := Family.transCmp hf
      exact isLE_of_transCmp ho hp

theorem comparand_of_numeric? {n : Numeric} (h : a.numeric? = some n)
    : a.comparand = .of .number n := by
  cases a <;> cases h <;> rfl

theorem order?_of_numeric? {m n : Numeric} (ha : a.numeric? = some m) (hb : b.numeric? = some n)
    : a.order? b = some (m.order n) := by
  rw [order?_eq, comparand_of_numeric? ha, comparand_of_numeric? hb]
  exact Comparand.order?_of .number m n

theorem not_chained_of_gt {o p : Ordering} (hab : a.order? b = some o) (hbc : b.order? c = some p)
    (ho : o.isLE = true) (hp : p.isLE = true) (hac : a.order? c = some .gt) : ¬ a.Chained b c := by
  intro h
  obtain ⟨q, hq, hle, _⟩ := h o p hab hbc ho hp
  rw [hac] at hq
  cases hq
  cases hle

/-- Where doubles do not keep the order of two numbers, the double of one of them breaks a chain. -/
theorem exists_not_chained (h : a.RoundsApart b)
    : ∃ x, ¬ a.Chained (.double x) b ∨ ¬ b.Chained (.double x) a
        ∨ ¬ b.Chained a (.double x) ∨ ¬ (Value.double x).Chained a b := by
  obtain ⟨m, ha, n, hb, hapart⟩ := h
  have hx : (Value.double m.toFloat).numeric? = some (.float m.toFloat) := rfl
  have hself : Ieee.order m.toFloat m.toFloat = .eq := Std.ReflCmp.compare_self
  have hab := order?_of_numeric? ha hb
  have hba := order?_of_numeric? hb ha
  have hax : a.order? (.double m.toFloat) = some .eq := by
    rw [order?_of_numeric? ha hx, Numeric.order_of_float (.inr rfl)]
    exact congrArg some hself
  have hxa : (Value.double m.toFloat).order? a = some .eq := by
    rw [order?_of_numeric? hx ha, Numeric.order_of_float (.inl rfl)]
    exact congrArg some hself
  have hxb : (Value.double m.toFloat).order? b = some (Ieee.order m.toFloat n.toFloat) := by
    rw [order?_of_numeric? hx hb, Numeric.order_of_float (.inl rfl)]
    rfl
  have hbx : b.order? (.double m.toFloat) = some (Ieee.order m.toFloat n.toFloat).swap := by
    rw [order?_eq, Comparand.order?_swap, ← order?_eq, hxb]
    rfl
  rw [Numeric.order_swap] at hba
  unfold Numeric.RoundsApart at hapart
  refine ⟨m.toFloat, ?_⟩
  cases hf : Ieee.order m.toFloat n.toFloat with
  | lt =>
    rw [hf] at hbx hapart
    have hle : (m.order n).swap.isLE = true := by
      cases ho : m.order n with
      | lt => exact absurd ho hapart
      | eq | gt => rfl
    exact .inr (.inr (.inl (not_chained_of_gt hba hax hle rfl hbx)))
  | gt =>
    rw [hf] at hxb hapart
    have hle : (m.order n).isLE = true := by
      cases ho : m.order n with
      | gt => exact absurd ho hapart
      | eq | lt => rfl
    exact .inr (.inr (.inr (not_chained_of_gt hxa hab rfl hle hxb)))
  | eq =>
    rw [hf] at hxb hbx hapart
    cases ho : m.order n with
    | eq => exact absurd ho hapart
    | lt =>
      rw [ho] at hba
      exact .inr (.inl (not_chained_of_gt hbx hxa rfl rfl hba))
    | gt =>
      rw [ho] at hab
      exact .inl (not_chained_of_gt hax hxb rfl rfl hab)

theorem order?_self (a : Value) : a.order? a = some .eq := by
  rw [order?_eq, Comparand.order?_self]

theorem order?_swap (a b : Value) : b.order? a = (a.order? b).map Ordering.swap := by
  rw [order?_eq, Comparand.order?_swap, ← order?_eq]

theorem looselyEquals_iff : a.looselyEquals b = true ↔ a.order? b = some .eq := beq_iff_eq

theorem looselyEquals_trans (habc : a.Chained b c) (hcba : c.Chained b a)
    (hab : a.looselyEquals b = true) (hbc : b.looselyEquals c = true)
    : a.looselyEquals c = true := by
  rw [looselyEquals_iff] at hab hbc ⊢
  have hba : b.order? a = some .eq := by rw [order?_swap, hab]; rfl
  have hcb : c.order? b = some .eq := by rw [order?_swap, hbc]; rfl
  obtain ⟨q, hq, hle, _⟩ := habc _ _ hab hbc rfl rfl
  obtain ⟨q', hq', hle', _⟩ := hcba _ _ hcb hba rfl rfl
  rw [order?_swap, hq] at hq'
  cases hq'
  cases q with
  | eq => exact hq
  | lt => cases hle'
  | gt => cases hle

/--
The order of values. It goes on from value to value unless one of three is a float and the doubles
of the other two are ordered otherwise than these; wherever this is so for two numbers, there is a
double that breaks the order.
-/
theorem order_laws
    : (∀ a : Value, a.order? a = some .eq ∧ a.looselyEquals a = true)
        ∧
      (∀ a b : Value,
        b.order? a = (a.order? b).map Ordering.swap ∧ b.looselyEquals a = a.looselyEquals b)
        ∧
      (∀ a b c : Value,
        (a.isFloat = true ∨ b.isFloat = true ∨ c.isFloat = true →
          ¬ a.RoundsApart b ∧ ¬ b.RoundsApart c ∧ ¬ a.RoundsApart c) →
        a.Chained b c
          ∧
        (a.looselyEquals b = true → b.looselyEquals c = true → a.looselyEquals c = true))
        ∧
      ∀ a b : Value, a.RoundsApart b →
        ∃ x, ¬ a.Chained (.double x) b ∨ ¬ b.Chained (.double x) a
          ∨ ¬ b.Chained a (.double x) ∨ ¬ (Value.double x).Chained a b := by
  refine ⟨?_, ?_, ?_, fun a b => exists_not_chained⟩
  . intro a
    exact ⟨order?_self a, looselyEquals_iff.mpr (order?_self a)⟩
  . intro a b
    refine ⟨order?_swap a b, ?_⟩
    rw [Bool.eq_iff_iff, looselyEquals_iff, looselyEquals_iff, order?_swap]
    cases a.order? b with
    | none => simp
    | some o => cases o <;> simp
  . intro a b c h
    refine ⟨chained h, looselyEquals_trans (chained h) (chained ?_)⟩
    intro hfloat
    obtain ⟨hab, hbc, hac⟩ := h (by grind)
    exact ⟨fun hr => hbc hr.symm, fun hr => hab hr.symm, fun hr => hac hr.symm⟩

/-- Integers, floats and decimals whose doubles are ordered as they are. -/
theorem chained_mixed
    : (Value.int32 2).Chained (.double 2.5) (.decimal ⟨false, 275, 2, by decide, by decide⟩) :=
  (order_laws.2.2.1 _ _ _ fun _ => by decide +kernel).1

/-- A double that is equal to integers of 54 bits on both of its sides. -/
theorem not_chained_double
    : (Value.int64 9007199254740993).order? (.double 9007199254740992) = some .eq
        ∧
      (Value.double 9007199254740992).order? (.int64 9007199254740992) = some .eq
        ∧
      (Value.int64 9007199254740993).order? (.int64 9007199254740992) = some .gt
        ∧
      ¬ (Value.int64 9007199254740993).Chained (.double 9007199254740992)
          (.int64 9007199254740992) := by
  have hab : (Value.int64 9007199254740993).order? (.double 9007199254740992) = some .eq := by
    decide +kernel
  have hbc : (Value.double 9007199254740992).order? (.int64 9007199254740992) = some .eq := by
    decide +kernel
  have hac : (Value.int64 9007199254740993).order? (.int64 9007199254740992) = some .gt := by
    decide +kernel
  exact ⟨hab, hbc, hac, not_chained_of_gt hab hbc rfl rfl hac⟩

end Value

end Edm
