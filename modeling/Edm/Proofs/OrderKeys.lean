import Mathlib
import Edm.Accessor.Typed
import Edm.Proofs.Comparing
import Edm.Proofs.Ordering

/-!
This module contains the laws of orderings by keys. An ordering is the stable sort by all of its
keys, and it is rejected if and only if two of the records cannot be compared, in whatever order the
records are given.
-/

namespace Edm

variable {α β : Type}

def Value.Incompatible (a b : Value) : Prop :=
  a.isNull = false ∧ b.isNull = false ∧ a.order? b = none

instance (a b : Value) : Decidable (a.Incompatible b) := inferInstanceAs (Decidable (_ ∧ _))

/-- Null comes before all other values, and after them in a descending order. -/
def Direction.Before : Direction → Value → Value → Prop
  | .ascending, a, b => b.isNull = false ∧ (a.isNull = true ∨ a.order? b = some .lt)
  | .descending, a, b => a.isNull = false ∧ (b.isNull = true ∨ b.order? a = some .lt)

namespace OrderKey

/-! ### Elements with values for keys -/

section

variable (value : OrderKey → β → Value)

/-- A key for which `p` holds, after keys that `x` and `y` have equal values for. -/
def Decides (keys : List OrderKey) (x y : β) (p : OrderKey → Prop) : Prop :=
  ∃ front key back,
    keys = front ++ key :: back
      ∧
    (∀ k ∈ front, (value k x).looselyEquals (value k y) = true)
      ∧
    p key

def Precedes (keys : List OrderKey) (x y : β) : Prop :=
  Decides value keys x y fun key => key.direction.Before (value key x) (value key y)

def Conflict (keys : List OrderKey) (x y : β) : Prop :=
  Decides value keys x y fun key => (value key x).Incompatible (value key y)

def tied (keys : List OrderKey) (x y : β) : Bool :=
  keys.all fun key => (value key x).looselyEquals (value key y)

def column (key : OrderKey) (x y : β) : Except Failure Ordering :=
  key.direction.apply <$> compareKeys (value key x) (value key y)

def compareBy (keys : List OrderKey) : β → β → Except Failure Ordering :=
  told fun x y =>
    compareAllKeys (keys.map (·.direction)) (keys.map (value · x)) (keys.map (value · y))

end

variable {value : OrderKey → β → Value} {key : OrderKey} {keys : List OrderKey} {x y : β}
  {p : OrderKey → Prop} {S : β → Prop}

theorem decides_nil : ¬ Decides value [] x y p := by
  rintro ⟨front, k, back, h, _⟩
  exact List.append_ne_nil_of_right_ne_nil front (List.cons_ne_nil k back) h.symm

theorem decides_cons
    : Decides value (key :: keys) x y p
        ↔
      p key ∨ (value key x).looselyEquals (value key y) = true ∧ Decides value keys x y p := by
  constructor
  . rintro ⟨front, k, back, h, hfront, hp⟩
    cases front with
    | nil =>
      cases h
      exact .inl hp
    | cons k' front =>
      cases h
      rw [List.forall_mem_cons] at hfront
      exact .inr ⟨hfront.1, front, k, back, rfl, hfront.2, hp⟩
  . rintro (hp | ⟨heq, front, k, back, rfl, hfront, hp⟩)
    . exact ⟨[], key, keys, rfl, nofun, hp⟩
    . exact ⟨key :: front, k, back, rfl, List.forall_mem_cons.mpr ⟨heq, hfront⟩, hp⟩

/-! ### One key -/

theorem eq_null_of_isNull {v : Value} (h : v.isNull = true) : v = .null := by
  cases v with
  | null => rfl
  | _ => cases h

theorem compareKeys_eq (a b : Value)
    : compareKeys a b =
        match a.order? b with
        | some o => .ok o
        | none => Expr.failing (.incomparable a.typeLabel b.typeLabel) := by
  cases ha : a.isNull with
  | true =>
    rw [eq_null_of_isNull ha]
    cases b <;> rfl
  | false =>
    cases hb : b.isNull with
    | true =>
      rw [eq_null_of_isNull hb]
      cases a <;> rfl
    | false =>
      unfold compareKeys
      rw [ha, hb]
      rfl

theorem compareKeys_eq_ok {a b : Value} {o : Ordering}
    : compareKeys a b = .ok o ↔ a.order? b = some o := by
  rw [compareKeys_eq]
  cases a.order? b with
  | none => simp [Expr.failing]
  | some p => simp

theorem compareKeys_error {a b : Value} {failure : Failure} (h : compareKeys a b = .error failure)
    : a.Incompatible b ∧ ∃ cause, failure = .evaluation cause := by
  rw [compareKeys_eq] at h
  cases horder : a.order? b with
  | some o =>
    rw [horder] at h
    cases h
  | none =>
    rw [horder] at h
    cases h
    refine ⟨⟨?_, ?_, horder⟩, _, rfl⟩
    . cases a with
      | null => cases b <;> cases horder
      | _ => rfl
    . cases b with
      | null => cases a <;> cases horder
      | _ => rfl

theorem column_eq_ok {o : Ordering}
    : column value key x y = .ok o ↔
        match key.direction with
        | .ascending => (value key x).order? (value key y) = some o
        | .descending => (value key y).order? (value key x) = some o := by
  unfold column
  rw [map_eq_ok]
  simp only [compareKeys_eq_ok]
  cases key.direction with
  | ascending => simp [Direction.apply]
  | descending => simp [Direction.apply, Value.order?_swap (value key x) (value key y)]

theorem column_error {failure : Failure}
    : column value key x y = .error failure ↔
        compareKeys (value key x) (value key y) = .error failure := by
  unfold column
  cases compareKeys (value key x) (value key y) with
  | error failure' => exact Iff.rfl
  | ok o => exact ⟨nofun, nofun⟩

theorem coherent_column (hexact : ∀ x, S x → (value key x).isFloat = false)
    : Coherent (column value key) S where
  refl := by
    intro x hx
    rw [column_eq_ok]
    cases key.direction with
    | ascending => exact Value.order?_self _
    | descending => exact Value.order?_self _
  swap := by
    intro x y o hx hy h
    rw [column_eq_ok] at h ⊢
    cases hd : key.direction with
    | ascending =>
      rw [hd] at h
      dsimp only at h ⊢
      rw [Value.order?_swap, h]
      rfl
    | descending =>
      rw [hd] at h
      dsimp only at h ⊢
      rw [Value.order?_swap, h]
      rfl
  trans := by
    intro x y z o p hx hy hz hxy hyz ho hp
    have hchained : ∀ a b c : β, S a → S b → S c →
        (value key a).Chained (value key b) (value key c) := by
      intro a b c ha hb hc
      apply Value.chained
      rw [hexact a ha, hexact b hb, hexact c hc]
      rintro (h | h | h) <;> cases h
    simp only [column_eq_ok] at hxy hyz ⊢
    cases hd : key.direction with
    | ascending =>
      rw [hd] at hxy hyz
      exact hchained x y z hx hy hz o p hxy hyz ho hp
    | descending =>
      rw [hd] at hxy hyz
      obtain ⟨q, hq, hqle, heq⟩ := hchained z y x hz hy hx p o hyz hxy hp ho
      exact ⟨q, hq, hqle, fun h => (heq h).symm⟩

/-! ### All keys -/

theorem compareBy_cons
    : compareBy value (key :: keys) = thenCompare (column value key) (compareBy value keys) := by
  funext x y
  unfold thenCompare column compareBy told
  simp only [List.map_cons]
  rw [compareAllKeys]
  cases compareKeys (value key x) (value key y) with
  | error failure => rfl
  | ok o =>
    rw [map_ok, ok_bind]
    dsimp only
    cases key.direction.apply o <;> rfl

theorem thenCompare_compareBy_nil {cmp : β → β → Except Failure Ordering}
    : thenCompare cmp (compareBy value []) = cmp := by
  funext x y
  unfold thenCompare
  cases cmp x y with
  | error failure => rfl
  | ok o => cases o <;> rfl

theorem coherent_compareBy (hexact : ∀ x, S x → ∀ key ∈ keys, (value key x).isFloat = false)
    : Coherent (compareBy value keys) S := by
  induction keys with
  | nil =>
    refine ⟨fun _ => rfl, ?_, ?_⟩
    . intro x y o _ _ h
      cases h
      rfl
    . intro x y z o p _ _ _ hxy hyz _ _
      cases hxy
      cases hyz
      exact ⟨.eq, rfl, rfl, fun _ => ⟨rfl, rfl⟩⟩
  | cons key keys ih =>
    simp only [List.forall_mem_cons] at hexact
    rw [compareBy_cons]
    apply Coherent.thenCompare
    . exact coherent_column fun x hx => (hexact x hx).1
    . exact ih fun x hx => (hexact x hx).2

theorem column_eq_ok_eq
    : column value key x y = .ok .eq ↔ (value key x).looselyEquals (value key y) = true := by
  rw [column_eq_ok, Value.looselyEquals_iff]
  cases key.direction with
  | ascending => exact Iff.rfl
  | descending =>
    dsimp only
    rw [Value.order?_swap]
    cases (value key x).order? (value key y) with
    | none => simp
    | some o => cases o <;> simp

theorem before_of_column (h : column value key x y = .ok .lt)
    : key.direction.Before (value key x) (value key y) := by
  have hbefore : ∀ a b : Value, a.order? b = some .lt →
      b.isNull = false ∧ (a.isNull = true ∨ a.order? b = some .lt) := by
    intro a b hlt
    refine ⟨?_, .inr hlt⟩
    cases b with
    | null => cases a <;> cases hlt
    | _ => rfl
  rw [column_eq_ok] at h
  cases hd : key.direction with
  | ascending =>
    rw [hd] at h
    exact hbefore _ _ h
  | descending =>
    rw [hd] at h
    exact hbefore _ _ h

theorem ties_compareBy : ties (compareBy value keys) x y = tied value keys x y := by
  induction keys with
  | nil => rfl
  | cons key keys ih =>
    have hcolumn : ties (column value key) x y = (value key x).looselyEquals (value key y) := by
      rw [Bool.eq_iff_iff, ties_iff, column_eq_ok_eq]
    rw [compareBy_cons, ties_thenCompare, ih, hcolumn]
    rfl

theorem precedes_of_compareBy (h : compareBy value keys x y = .ok .lt)
    : Precedes value keys x y := by
  induction keys with
  | nil => cases h
  | cons key keys ih =>
    rw [compareBy_cons] at h
    apply decides_cons.mpr
    rcases thenCompare_eq_ok h with ⟨heq, h⟩ | ⟨h, _⟩
    . exact .inr ⟨column_eq_ok_eq.mp heq, ih h⟩
    . exact .inl (before_of_column h)

theorem precedes_or_tied (h : InOrder (compareBy value keys) x y)
    : Precedes value keys x y ∨ tied value keys x y = true := by
  obtain ⟨o, ho, hle⟩ := h
  cases o with
  | lt => exact .inl (precedes_of_compareBy ho)
  | eq =>
    rw [← ties_compareBy]
    exact .inr (ties_iff.mpr ho)
  | gt => cases hle

theorem compareBy_error {failure : Failure} (h : compareBy value keys x y = .error failure)
    : Conflict value keys x y ∧ ∃ cause, failure = .evaluation cause := by
  induction keys with
  | nil => cases h
  | cons key keys ih =>
    rw [compareBy_cons] at h
    cases hcolumn : column value key x y with
    | error failure' =>
      obtain ⟨hincompatible, hcause⟩ := compareKeys_error (column_error.mp hcolumn)
      rw [thenCompare, hcolumn] at h
      cases h
      exact ⟨decides_cons.mpr (.inl hincompatible), hcause⟩
    | ok o =>
      by_cases ho : o = .eq
      . subst ho
        rw [thenCompare_of_eq hcolumn] at h
        obtain ⟨hconflict, hcause⟩ := ih h
        exact ⟨decides_cons.mpr (.inr ⟨column_eq_ok_eq.mp hcolumn, hconflict⟩), hcause⟩
      . rw [thenCompare_of_ne hcolumn ho] at h
        cases h

theorem compareBy_of_conflict (h : Conflict value keys x y) (o : Ordering)
    : compareBy value keys x y ≠ .ok o := by
  induction keys with
  | nil => exact absurd h decides_nil
  | cons key keys ih =>
    rw [compareBy_cons]
    intro ho
    rcases decides_cons.mp h with ⟨_, _, hnone⟩ | ⟨heq, hconflict⟩
    . have hcolumn : ∃ o, column value key x y = .ok o := by
        rcases thenCompare_eq_ok ho with ⟨h, _⟩ | ⟨h, _⟩
        . exact ⟨_, h⟩
        . exact ⟨_, h⟩
      obtain ⟨p, hp⟩ := hcolumn
      obtain ⟨q, hq, _⟩ := map_eq_ok.mp hp
      rw [compareKeys_eq_ok, hnone] at hq
      cases hq
    . rw [thenCompare_of_eq (column_eq_ok_eq.mpr heq)] at ho
      exact ih hconflict ho

theorem ne_of_conflict (h : Conflict value keys x y) : x ≠ y := by
  rintro rfl
  obtain ⟨_, key, _, _, _, _, _, hnone⟩ := h
  rw [Value.order?_self] at hnone
  cases hnone

end OrderKey

/-! ### Records -/

section

open OrderKey

variable {resolve : Shape → Option (Accessor α)} {keys : List OrderKey} {rs : List (Record α)}
  {value : OrderKey → Record α → Value}
  {sort : List (Keyed α) → Sorter (Keyed α) (List (Keyed α))}

theorem keyValues_eq {r : Record α}
    (h : ∀ key ∈ keys, key.expr.evaluate resolve r = .ok (value key r))
    : keyValues resolve keys r = .ok (keys.map (value · r)) := by
  unfold keyValues
  rw [mapM_eq_ok, List.forall₂_map_right_iff, List.forall₂_same]
  exact h

def keyedBy (value : OrderKey → Record α → Value) (keys : List OrderKey) (r : Record α) : Keyed α :=
  (keys.map (value · r), r)

theorem orderRecordsBy_eq (hkeys : keys ≠ []) (hvalue : ∀ r ∈ rs, ∀ key ∈ keys,
      key.expr.evaluate resolve r = .ok (value key r))
    : orderRecordsBy sort resolve keys rs
        = orderedRecords ((sort (rs.map (keyedBy value keys))).run (compareKeyed keys) none) := by
  have hkeyed : rs.mapM (fun r => do return (← keyValues resolve keys r, r))
      = .ok (rs.map (keyedBy value keys)) := by
    rw [mapM_eq_ok, List.forall₂_map_right_iff, List.forall₂_same]
    intro r hr
    rw [keyValues_eq (hvalue r hr)]
    rfl
  rw [orderRecordsBy, if_neg (by simpa using hkeys), hkeyed, ok_bind]

theorem orderRecordsBy_cases (hsort : ∀ xs, (sort xs).Sorts xs) (hvalue : ∀ r ∈ rs, ∀ key ∈ keys,
      key.expr.evaluate resolve r = .ok (value key r))
    (hexact : ∀ r ∈ rs, ∀ key ∈ keys, (value key r).isFloat = false)
    : (∃ sorted, orderRecordsBy sort resolve keys rs = .ok sorted
          ∧ IsStableSort (compareBy value keys) rs sorted
          ∧ ∀ r ∈ rs, ∀ r' ∈ rs, ∃ o, compareBy value keys r r' = .ok o)
        ∨
      ∃ failure, orderRecordsBy sort resolve keys rs = .error failure
        ∧ ∃ r ∈ rs, ∃ r' ∈ rs, ∃ failure', compareBy value keys r r' = .error failure' := by
  by_cases hkeys : keys = []
  . subst hkeys
    refine .inl ⟨rs, rfl, ⟨List.Perm.refl rs, ?_, fun _ _ => rfl⟩, fun _ _ _ _ => ⟨.eq, rfl⟩⟩
    exact List.pairwise_of_forall fun r r' => ⟨.eq, rfl, rfl⟩
  rw [orderRecordsBy_eq hkeys hvalue]
  have ht := hsort (rs.map (keyedBy value keys))
  have hcmp : Coherent (told (compareKeyed keys)) (· ∈ rs.map (keyedBy value keys)) :=
    Coherent.of_map (coherent_compareBy hexact)
  have hmem : ∀ {r}, r ∈ rs → keyedBy value keys r ∈ rs.map (keyedBy value keys) :=
    List.mem_map_of_mem
  cases hrun : (sort (rs.map (keyedBy value keys))).run (compareKeyed keys) none with
  | mk failure? result? =>
    cases failure? with
    | none =>
      have hnone := congrArg Prod.fst hrun
      obtain ⟨zs, hzs, hstable⟩ := ht.exists_isStableSort hcmp hnone
      obtain rfl : result? = some zs := by rw [← hzs, hrun]
      refine .inl ⟨_, rfl, hstable.of_map fun _ => rfl, ?_⟩
      exact fun r hr r' hr' => ht.exists_of_run hcmp hnone (hmem hr) (hmem hr')
    | some failure =>
      obtain ⟨x, y, hx, hy, hfail⟩ := Sorter.exists_of_run ht.within (congrArg Prod.fst hrun)
      obtain ⟨r, hr, rfl⟩ := List.mem_map.mp hx
      obtain ⟨r', hr', rfl⟩ := List.mem_map.mp hy
      refine .inr ?_
      cases result? with
      | none => exact ⟨_, rfl, r, hr, r', hr', _, hfail⟩
      | some result => exact ⟨_, rfl, r, hr, r', hr', _, hfail⟩

theorem exists_isStableSort (hvalue : ∀ r ∈ rs, ∀ key ∈ keys,
      key.expr.evaluate resolve r = .ok (value key r))
    (hexact : ∀ r ∈ rs, ∀ key ∈ keys, (value key r).isFloat = false)
    (hcomparable : ∀ key ∈ keys, ∀ r ∈ rs, ∀ r' ∈ rs,
      ¬ (value key r).Incompatible (value key r'))
    : ∃ sorted, orderRecords resolve keys rs = .ok sorted
        ∧ IsStableSort (compareBy value keys) rs sorted := by
  rcases orderRecordsBy_cases Sorter.sorts_sort hvalue hexact with
    ⟨sorted, hsorted, hstable, _⟩ | ⟨_, _, r, hr, r', hr', _, hfail⟩
  . exact ⟨sorted, hsorted, hstable⟩
  . obtain ⟨_, key, _, hkeys, _, hincompatible⟩ := (compareBy_error hfail).1
    exact absurd hincompatible (hcomparable key (by simp [hkeys]) r hr r' hr')

theorem exists_isStableSort_foldlM (hvalue : ∀ r ∈ rs, ∀ key ∈ keys,
      key.expr.evaluate resolve r = .ok (value key r))
    (hexact : ∀ r ∈ rs, ∀ key ∈ keys, (value key r).isFloat = false)
    (hcomparable : ∀ key ∈ keys, ∀ r ∈ rs, ∀ r' ∈ rs,
      ¬ (value key r).Incompatible (value key r'))
    : ∃ sorted,
        keys.reverse.foldlM (fun rs key => orderRecords resolve [key] rs) rs = .ok sorted
          ∧
        IsStableSort (compareBy value keys) rs sorted := by
  induction keys with
  | nil =>
    refine ⟨rs, rfl, List.Perm.refl rs, ?_, fun _ _ => rfl⟩
    exact List.pairwise_of_forall fun r r' => ⟨.eq, rfl, rfl⟩
  | cons key keys ih =>
    simp only [List.forall_mem_cons] at hvalue hexact hcomparable
    obtain ⟨byOthers, hbyOthers, hothers⟩ := ih (fun r hr => (hvalue r hr).2)
      (fun r hr => (hexact r hr).2) hcomparable.2
    have hmem : ∀ {r}, r ∈ byOthers → r ∈ rs := hothers.perm.mem_iff.mp
    have hcolumn : ∃ sorted, orderRecords resolve [key] byOthers = .ok sorted
        ∧ IsStableSort (compareBy value [key]) byOthers sorted :=
      exists_isStableSort (fun r hr => List.forall_mem_singleton.mpr (hvalue r (hmem hr)).1)
        (fun r hr => List.forall_mem_singleton.mpr (hexact r (hmem hr)).1)
        (List.forall_mem_singleton.mpr fun r hr r' hr' =>
          hcomparable.1 r (hmem hr) r' (hmem hr'))
    obtain ⟨sorted, hsorted, hstable⟩ := hcolumn
    refine ⟨sorted, ?_, ?_⟩
    . rw [List.reverse_cons, List.foldlM_append, hbyOthers, ok_bind, List.foldlM_cons, hsorted]
      rfl
    . rw [compareBy_cons]
      rw [compareBy_cons, thenCompare_compareBy_nil] at hstable
      exact hothers.thenCompare (coherent_column fun r hr => (hexact r hr).1) (fun _ hr => hr)
        hstable

/--
An ordering is the stable sort by its keys. The records are in the lexicographic order of their
values, those that are equal for all keys stay in their order, and ordering by one key after the
other, the last one first, gives the same.
-/
theorem orderRecords_stable (hvalue : ∀ r ∈ rs, ∀ key ∈ keys,
      key.expr.evaluate resolve r = .ok (value key r))
    (hexact : ∀ r ∈ rs, ∀ key ∈ keys, (value key r).isFloat = false)
    (hcomparable : ∀ key ∈ keys, ∀ r ∈ rs, ∀ r' ∈ rs,
      ¬ (value key r).Incompatible (value key r'))
    : ∃ sorted,
        orderRecords resolve keys rs = .ok sorted
          ∧
        sorted.Perm rs
          ∧
        sorted.Pairwise (fun r r' => Precedes value keys r r' ∨ tied value keys r r' = true)
          ∧
        (∀ r ∈ rs, sorted.filter (tied value keys r) = rs.filter (tied value keys r))
          ∧
        keys.reverse.foldlM (fun rs key => orderRecords resolve [key] rs) rs = .ok sorted := by
  obtain ⟨sorted, hsorted, hstable⟩ := exists_isStableSort hvalue hexact hcomparable
  obtain ⟨sorted', hsorted', hstable'⟩ := exists_isStableSort_foldlM hvalue hexact hcomparable
  have hcmp := coherent_compareBy hexact
  obtain rfl : sorted = sorted' := hstable.unique hcmp (fun _ hr => hr) hstable'
  refine ⟨sorted, hsorted, hstable.perm, ?_, ?_, hsorted'⟩
  . exact hstable.sorted.imp precedes_or_tied
  . intro r hr
    have hties : ties (compareBy value keys) r = tied value keys r :=
      funext fun r' => ties_compareBy
    rw [← hties]
    exact hstable.stable r hr

theorem exists_error_iff (hsort : ∀ xs, (sort xs).Sorts xs) (hvalue : ∀ r ∈ rs, ∀ key ∈ keys,
      key.expr.evaluate resolve r = .ok (value key r))
    (hexact : ∀ r ∈ rs, ∀ key ∈ keys, (value key r).isFloat = false)
    : (∃ failure, orderRecordsBy sort resolve keys rs = .error failure)
        ↔
      ∃ r ∈ rs, ∃ r' ∈ rs, r ≠ r' ∧ Conflict value keys r r' := by
  rcases orderRecordsBy_cases hsort hvalue hexact with
    ⟨sorted, hsorted, _, hall⟩ | ⟨failure, hfails, r, hr, r', hr', _, hfail⟩
  . constructor
    . rintro ⟨failure, hfails⟩
      rw [hsorted] at hfails
      cases hfails
    . rintro ⟨r, hr, r', hr', _, hconflict⟩
      obtain ⟨o, ho⟩ := hall r hr r' hr'
      exact absurd ho (compareBy_of_conflict hconflict o)
  . have hconflict := (compareBy_error hfail).1
    exact ⟨fun _ => ⟨r, hr, r', hr', ne_of_conflict hconflict, hconflict⟩, fun _ => ⟨_, hfails⟩⟩

theorem toOption_orderRecordsBy (hsort : ∀ xs, (sort xs).Sorts xs)
    (hvalue : ∀ r ∈ rs, ∀ key ∈ keys, key.expr.evaluate resolve r = .ok (value key r))
    (hexact : ∀ r ∈ rs, ∀ key ∈ keys, (value key r).isFloat = false)
    : (orderRecordsBy sort resolve keys rs).toOption
        = (orderRecords resolve keys rs).toOption := by
  unfold orderRecords
  rcases orderRecordsBy_cases hsort hvalue hexact with
    ⟨sorted, hsorted, hstable, hall⟩ | ⟨failure, hfails, r, hr, r', hr', _, hfail⟩
  . rcases orderRecordsBy_cases Sorter.sorts_sort hvalue hexact with
      ⟨sorted', hsorted', hstable', _⟩ | ⟨_, _, r, hr, r', hr', _, hfail⟩
    . rw [hsorted, hsorted', hstable.unique (coherent_compareBy hexact) (fun _ hr => hr) hstable']
    . obtain ⟨o, ho⟩ := hall r hr r' hr'
      rw [hfail] at ho
      cases ho
  . rcases orderRecordsBy_cases Sorter.sorts_sort hvalue hexact with
      ⟨_, _, _, hall⟩ | ⟨failure', hfails', _⟩
    . obtain ⟨o, ho⟩ := hall r hr r' hr'
      rw [hfail] at ho
      cases ho
    . rw [hfails, hfails']
      rfl

theorem orderRecordsBy_error {failure : Failure} {mayGiveUp : Prop}
    (hwithin : (sort (rs.map (keyedBy value keys))).Within (· ∈ rs.map (keyedBy value keys))
      mayGiveUp (·.Perm (rs.map (keyedBy value keys))))
    (hvalue : ∀ r ∈ rs, ∀ key ∈ keys, key.expr.evaluate resolve r = .ok (value key r))
    (h : orderRecordsBy sort resolve keys rs = .error failure)
    : (∃ cause, failure = .evaluation cause)
        ∨ failure = .panicked .inconsistentOrder ∧ mayGiveUp := by
  by_cases hkeys : keys = []
  . subst hkeys
    cases h
  rw [orderRecordsBy_eq hkeys hvalue] at h
  rcases orderedRecords_error hwithin h with hpanic | ⟨a, b, hfail⟩
  . exact .inr hpanic
  . exact .inl (compareKeys_error hfail).2

/--
An ordering has no result if and only if two records are in conflict: they are equal for some keys,
and for the next one they have values that cannot be compared. The order in which the records are
given does not matter for this, nor does the way in which they are sorted. It is an evaluation that
fails then, but with many records the sort may also notice that the comparisons contradict each
other.
-/
theorem orderRecords_rejects_iff (hvalue : ∀ r ∈ rs, ∀ key ∈ keys,
      key.expr.evaluate resolve r = .ok (value key r))
    (hexact : ∀ r ∈ rs, ∀ key ∈ keys, (value key r).isFloat = false)
    : ((∃ failure, orderRecords resolve keys rs = .error failure)
        ↔
      ∃ r ∈ rs, ∃ r' ∈ rs, r ≠ r' ∧ Conflict value keys r r')
        ∧
      (∀ failure, orderRecords resolve keys rs = .error failure →
        (∃ cause, failure = .evaluation cause)
          ∨ failure = .panicked .inconsistentOrder ∧ Sorter.insertionLimit < rs.length)
        ∧
      (∀ rs' : List (Record α), rs'.Perm rs →
        ((∃ failure, orderRecords resolve keys rs' = .error failure)
          ↔
        ∃ failure, orderRecords resolve keys rs = .error failure))
        ∧
      ∀ sort : List (Keyed α) → Sorter (Keyed α) (List (Keyed α)),
        (∀ xs, (sort xs).Sorts xs) →
          (orderRecordsBy sort resolve keys rs).toOption = (orderRecords resolve keys rs).toOption
            ∧
          ∀ failure, orderRecordsBy sort resolve keys rs = .error failure →
            (∃ cause, failure = .evaluation cause) ∨ failure = .panicked .inconsistentOrder := by
  have hiff := exists_error_iff Sorter.sorts_sort hvalue hexact
  have hwithin := Sorter.within_sort (rs.map (keyedBy value keys))
  rw [List.length_map] at hwithin
  refine ⟨hiff, fun failure h => orderRecordsBy_error hwithin hvalue h, ?_, ?_⟩
  . intro rs' hperm
    have hiff' := exists_error_iff Sorter.sorts_sort
      (fun r hr => hvalue r (hperm.mem_iff.mp hr)) (fun r hr => hexact r (hperm.mem_iff.mp hr))
    unfold orderRecords
    rw [hiff, hiff']
    simp only [hperm.mem_iff]
  . intro sort hsort
    refine ⟨toOption_orderRecordsBy hsort hvalue hexact, fun failure h => ?_⟩
    exact (orderRecordsBy_error (hsort _).within hvalue h).imp id And.left

end

/-! ### Parcels by size and city -/

namespace Parcels

structure Parcel where
  number : Nat
  size : Value
  city : Value

def kind : Kind Parcel Parcel := ⟨"Parcel", id, some, fun _ => rfl⟩

def accessor : Accessor Parcel :=
  .typed kind ⟨0, .null, .null⟩ [
    Member.simple "Size" .int32 .value (·.size) fun p size => { p with size },
    Member.simple "City" .string .value (·.city) fun p city => { p with city }]

def resolve (_ : Shape) : Option (Accessor Parcel) := some accessor

def parcel (number : Nat) (size city : Value) : Record Parcel := ⟨⟨"parcel"⟩, number, size, city⟩

def keys : List OrderKey := [⟨.property ["Size"], .descending⟩, ⟨.property ["City"], .ascending⟩]

def value (key : OrderKey) (r : Record Parcel) : Value :=
  match key.expr with
  | .property ["Size"] => r.data.size
  | _ => r.data.city

def parcels : List (Record Parcel) :=
  [parcel 1 .null (.string "Bonn"), parcel 2 (.int32 5) (.string "Rome"),
    parcel 3 (.int64 5) (.string "Rome"), parcel 4 (.int32 5) .null, parcel 5 (.int32 9) .null]

/-- A parcel whose size is a word, between others of the same city. -/
def mixed : List (Record Parcel) :=
  [parcel 1 (.int32 5) (.string "Rome"), parcel 2 .null (.string "Rome"),
    parcel 3 (.string "large") (.string "Bonn"), parcel 4 (.int32 9) (.string "Rome"),
    parcel 5 (.string "small") (.string "Rome")]

theorem evaluate_eq (r : Record Parcel) (key : OrderKey) (hkey : key ∈ keys)
    : key.expr.evaluate resolve r = .ok (value key r) := by
  obtain ⟨shape, number, size, city⟩ := r
  simp only [keys, List.mem_cons, List.not_mem_nil, or_false] at hkey
  rcases hkey with rfl | rfl
  . cases size <;> rfl
  . cases city <;> rfl

/-- Parcels without a size come last, and those of the same size and city as before. -/
theorem orderRecords_parcels
    : ∃ sorted,
        orderRecords resolve keys parcels = .ok sorted
          ∧
        sorted.map (·.data.number) = [5, 4, 2, 3, 1]
          ∧
        keys.reverse.foldlM (fun rs key => orderRecords resolve [key] rs) parcels = .ok sorted := by
  have hvalue : ∀ r ∈ parcels, ∀ key ∈ keys,
      key.expr.evaluate resolve r = .ok (value key r) :=
    fun r _ => evaluate_eq r
  obtain ⟨sorted, hsorted, _, _, _, hcolumns⟩ :=
    orderRecords_stable hvalue (by decide) (by decide)
  refine ⟨sorted, hsorted, ?_, hcolumns⟩
  have hnumbers : List.map (·.data.number) <$> orderRecords resolve keys parcels
      = .ok [5, 4, 2, 3, 1] := by
    cbv
  rw [hsorted] at hnumbers
  exact Except.ok.inj hnumbers

/-- The first parcel and the last one are from the same city, and their sizes have no order. -/
theorem orderRecords_mixed
    : ∃ cause failure,
        orderRecords resolve keys.reverse mixed = .error (.evaluation cause)
          ∧
        orderRecords resolve keys.reverse mixed.reverse = .error failure := by
  have hvalue : ∀ r ∈ mixed, ∀ key ∈ keys.reverse,
      key.expr.evaluate resolve r = .ok (value key r) :=
    fun r _ key hkey => evaluate_eq r key (List.mem_reverse.mp hkey)
  obtain ⟨hiff, hkind, hperm, _⟩ := orderRecords_rejects_iff hvalue (by decide)
  have hconflict : OrderKey.Conflict value keys.reverse (parcel 1 (.int32 5) (.string "Rome"))
      (parcel 5 (.string "small") (.string "Rome")) :=
    ⟨[⟨.property ["City"], .ascending⟩], _, [], rfl, by decide, by decide⟩
  obtain ⟨failure, hfails⟩ := hiff.mpr
    ⟨_, by simp [mixed], _, by simp [mixed], OrderKey.ne_of_conflict hconflict, hconflict⟩
  obtain ⟨cause, rfl⟩ : ∃ cause, failure = .evaluation cause := by
    rcases hkind failure hfails with hcause | ⟨_, hmany⟩
    . exact hcause
    . exact absurd hmany (by decide)
  obtain ⟨failure', hfails'⟩ := (hperm mixed.reverse (List.reverse_perm mixed)).mpr ⟨_, hfails⟩
  exact ⟨cause, failure', hfails, hfails'⟩

def bySize : List OrderKey := [⟨.property ["Size"], .ascending⟩]

/-- Each of these parcels is smaller than the one before, but for one whose size is a word. -/
def many : List (Record Parcel) :=
  (List.range 21).map fun n =>
    parcel (n + 1) (if n = 5 then .string "a" else .int32 (.ofNat (21 - n))) .null

/-- The sort gives up for these parcels, but not if they are given in the opposite order. -/
theorem orderRecords_many
    : (∀ r ∈ many, ∀ key ∈ bySize, key.expr.evaluate resolve r = .ok (value key r))
        ∧
      (∀ r ∈ many, ∀ key ∈ bySize, (value key r).isFloat = false)
        ∧
      (∃ r ∈ many, ∃ r' ∈ many, r ≠ r' ∧ OrderKey.Conflict value bySize r r')
        ∧
      orderRecords resolve bySize many = .error (.panicked .inconsistentOrder)
        ∧
      ∃ cause, orderRecords resolve bySize many.reverse = .error (.evaluation cause) := by
  have hconflict : OrderKey.Conflict value bySize (parcel 6 (.string "a") .null)
      (parcel 1 (.int32 21) .null) :=
    ⟨[], _, [], rfl, nofun, by decide⟩
  refine ⟨?_, by decide, ?_, by cbv, ⟨.incomparable "Edm.String" "Edm.Int32", by cbv⟩⟩
  . intro r _ key hkey
    obtain rfl := List.mem_singleton.mp hkey
    obtain ⟨shape, number, size, city⟩ := r
    cases size <;> rfl
  . exact ⟨_, by simp [many, List.range_succ], _, by simp [many, List.range_succ],
      OrderKey.ne_of_conflict hconflict, hconflict⟩

end Parcels

end Edm
