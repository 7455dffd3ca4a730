import Mathlib.Data.List.Pairwise
import Edm.Proofs.Comparing
import Edm.Proofs.Outcome

/-!
This module contains the laws of stable sorting with comparisons that can fail. That the elements
are in order, and equal ones in the order that they had before, leaves one result only. Sorting by
several keys is therefore the same as sorting by one key after the other, the last one first, and
for a total order the result is that of `List.mergeSort`.
-/

namespace Edm

variable {β ε : Type}

/-- `x` and `y` can be compared, and `x` may stand in front of `y`. -/
def InOrder (cmp : β → β → Except ε Ordering) (x y : β) : Prop :=
  ∃ o, cmp x y = .ok o ∧ o.isLE = true

def ties (cmp : β → β → Except ε Ordering) (x y : β) : Bool :=
  match cmp x y with
  | .ok .eq => true
  | _ => false

/-- Comparisons of certain elements agree with each other as far as they succeed. -/
structure Coherent (cmp : β → β → Except ε Ordering) (S : β → Prop) : Prop where
  refl : ∀ {x}, S x → cmp x x = .ok .eq
  swap : ∀ {x y o}, S x → S y → cmp x y = .ok o → cmp y x = .ok o.swap
  trans : ∀ {x y z o p}, S x → S y → S z → cmp x y = .ok o → cmp y z = .ok p →
    o.isLE = true → p.isLE = true →
      ∃ q, cmp x z = .ok q ∧ q.isLE = true ∧ (q = .eq → o = .eq ∧ p = .eq)

variable {cmp : β → β → Except ε Ordering} {S : β → Prop} {x y z : β} {xs ys zs : List β}

theorem Coherent.of_map {γ : Type} {f : γ → β} {ws : List γ}
    (h : Coherent (fun v w => cmp (f v) (f w)) (· ∈ ws)) : Coherent cmp (· ∈ ws.map f) := by
  have hmem : ∀ {x}, x ∈ ws.map f → ∃ w ∈ ws, f w = x := List.mem_map.mp
  refine ⟨?_, ?_, ?_⟩
  . intro x hx
    obtain ⟨w, hw, rfl⟩ := hmem hx
    exact h.refl hw
  . intro x y o hx hy
    obtain ⟨v, hv, rfl⟩ := hmem hx
    obtain ⟨w, hw, rfl⟩ := hmem hy
    exact h.swap hv hw
  . intro x y z o p hx hy hz
    obtain ⟨u, hu, rfl⟩ := hmem hx
    obtain ⟨v, hv, rfl⟩ := hmem hy
    obtain ⟨w, hw, rfl⟩ := hmem hz
    exact h.trans hu hv hw

theorem ties_iff : ties cmp x y = true ↔ cmp x y = .ok .eq := by
  unfold ties
  split
  . next h => simp [h]
  . next h => simpa using h

theorem InOrder.trans (hcmp : Coherent cmp S) (hx : S x) (hy : S y) (hz : S z)
    (hxy : InOrder cmp x y) (hyz : InOrder cmp y z) : InOrder cmp x z := by
  obtain ⟨o, ho, hole⟩ := hxy
  obtain ⟨p, hp, hple⟩ := hyz
  obtain ⟨q, hq, hqle, _⟩ := hcmp.trans hx hy hz ho hp hole hple
  exact ⟨q, hq, hqle⟩

theorem InOrder.antisymm (hcmp : Coherent cmp S) (hx : S x) (hy : S y) (hxy : InOrder cmp x y)
    (hyx : InOrder cmp y x) : ties cmp x y = true := by
  obtain ⟨o, ho, hole⟩ := hxy
  obtain ⟨p, hp, hple⟩ := hyx
  rw [hcmp.swap hx hy ho] at hp
  cases hp
  rw [ties_iff, ho]
  cases o with
  | eq => rfl
  | lt => cases hple
  | gt => cases hole

theorem ties_trans (hcmp : Coherent cmp S) (hx : S x) (hy : S y) (hz : S z)
    (hxy : ties cmp x y = true) (hxz : ties cmp x z = true) : ties cmp y z = true := by
  rw [ties_iff] at hxy hxz
  have hyx : cmp y x = .ok .eq := hcmp.swap hx hy hxy
  have hzx : cmp z x = .ok .eq := hcmp.swap hx hz hxz
  have hyz : InOrder cmp y z := InOrder.trans hcmp hy hx hz ⟨_, hyx, rfl⟩ ⟨_, hxz, rfl⟩
  have hzy : InOrder cmp z y := InOrder.trans hcmp hz hx hy ⟨_, hzx, rfl⟩ ⟨_, hxy, rfl⟩
  exact InOrder.antisymm hcmp hy hz hyz hzy

/-! ### What a stable sort is -/

/-- `zs` has the elements of `xs` in order, and equal ones in the order of `xs`. -/
structure IsStableSort (cmp : β → β → Except ε Ordering) (xs zs : List β) : Prop where
  perm : zs.Perm xs
  sorted : zs.Pairwise (InOrder cmp)
  stable : ∀ x ∈ xs, zs.filter (ties cmp x) = xs.filter (ties cmp x)

theorem eq_of_filter_ties (hcmp : Coherent cmp S) (hys : ∀ y ∈ ys, S y) (hperm : ys.Perm zs)
    (hsorted : ys.Pairwise (InOrder cmp)) (hsorted' : zs.Pairwise (InOrder cmp))
    (hfilter : ∀ y ∈ ys, ys.filter (ties cmp y) = zs.filter (ties cmp y)) : ys = zs := by
  induction ys generalizing zs with
  | nil => exact hperm.symm.eq_nil.symm
  | cons y ys ih =>
    cases zs with
    | nil => exact hperm.eq_nil
    | cons z zs =>
      rw [List.pairwise_cons] at hsorted hsorted'
      rw [List.forall_mem_cons] at hys
      have hself : ties cmp y y = true := ties_iff.mpr (hcmp.refl hys.1)
      have hy : y ∈ z :: zs := hperm.mem_iff.mp List.mem_cons_self
      have hz : z ∈ y :: ys := hperm.mem_iff.mpr List.mem_cons_self
      -- Each of the first elements may stand in front of the other one, so that they are equal, and
      -- each is the first of its equals.
      have heq : y = z := by
        rcases List.mem_cons.mp hy with heq | hy
        . exact heq
        . rcases List.mem_cons.mp hz with heq | hz
          . exact heq.symm
          . have htie := InOrder.antisymm hcmp hys.1 (hys.2 z hz) (hsorted.1 z hz)
              (hsorted'.1 y hy)
            have hfirst := hfilter y List.mem_cons_self
            rw [List.filter_cons_of_pos hself, List.filter_cons_of_pos htie] at hfirst
            exact (List.cons.inj hfirst).1
      subst heq
      congr 1
      apply ih hys.2 hperm.cons_inv hsorted.2 hsorted'.2
      intro x hx
      have hrest := hfilter x (List.mem_cons_of_mem y hx)
      rw [List.filter_cons, List.filter_cons] at hrest
      split at hrest
      . exact (List.cons.inj hrest).2
      . exact hrest

theorem IsStableSort.unique (hcmp : Coherent cmp S) (hxs : ∀ x ∈ xs, S x)
    (hys : IsStableSort cmp xs ys) (hzs : IsStableSort cmp xs zs) : ys = zs := by
  have hmem : ∀ {y}, y ∈ ys → y ∈ xs := hys.perm.mem_iff.mp
  apply eq_of_filter_ties hcmp (fun y hy => hxs y (hmem hy)) (hys.perm.trans hzs.perm.symm)
    hys.sorted hzs.sorted
  intro y hy
  rw [hys.stable y (hmem hy), hzs.stable y (hmem hy)]

theorem IsStableSort.of_map {γ : Type} {f : γ → β} {g : β → γ} {ws : List γ}
    (hg : Function.LeftInverse g f) (h : IsStableSort cmp (ws.map f) zs)
    : IsStableSort (fun v w => cmp (f v) (f w)) ws (zs.map g) := by
  have hws : (ws.map f).map g = ws := by rw [List.map_map, hg.comp_eq_id, List.map_id]
  have hf : ∀ {z}, z ∈ zs → f (g z) = z := by
    intro z hz
    obtain ⟨w, -, rfl⟩ := List.mem_map.mp (h.perm.mem_iff.mp hz)
    rw [hg]
  refine ⟨?_, ?_, ?_⟩
  . rw [← hws]
    exact h.perm.map g
  . rw [List.pairwise_map]
    refine h.sorted.imp_of_mem ?_
    intro x y hx hy hxy
    change ∃ o, cmp (f (g x)) (f (g y)) = .ok o ∧ _
    rwa [hf hx, hf hy]
  . intro w hw
    calc
      (zs.map g).filter (ties cmp (f w) ∘ f)
          = (zs.filter (ties cmp (f w) ∘ f ∘ g)).map g := List.filter_map
      _ = (zs.filter (ties cmp (f w))).map g := by
            refine congrArg (List.map g) (List.filter_congr fun z hz => ?_)
            exact congrArg (ties cmp (f w)) (hf hz)
      _ = ((ws.map f).filter (ties cmp (f w))).map g := by
            rw [h.stable (f w) (List.mem_map_of_mem hw)]
      _ = ((ws.filter (ties cmp (f w) ∘ f)).map f).map g := by rw [List.filter_map]
      _ = ws.filter (ties cmp (f w) ∘ f) := by rw [List.map_map, hg.comp_eq_id, List.map_id]

/-! ### One comparison after another -/

/-- The second comparison decides about what is equal for the first one. -/
def thenCompare (first second : β → β → Except ε Ordering) (x y : β) : Except ε Ordering := do
  match ← first x y with
  | .eq => second x y
  | o => return o

variable {first second : β → β → Except ε Ordering}

theorem thenCompare_of_eq (h : first x y = .ok .eq)
    : thenCompare first second x y = second x y := by
  unfold thenCompare
  rw [h]
  rfl

theorem thenCompare_of_ne {o : Ordering} (h : first x y = .ok o) (ho : o ≠ .eq)
    : thenCompare first second x y = .ok o := by
  unfold thenCompare
  rw [h]
  cases o with
  | eq => exact absurd rfl ho
  | lt => rfl
  | gt => rfl

theorem thenCompare_eq_ok {o : Ordering} (h : thenCompare first second x y = .ok o)
    : first x y = .ok .eq ∧ second x y = .ok o ∨ first x y = .ok o ∧ o ≠ .eq := by
  obtain ⟨p, hp, h⟩ := bind_eq_ok.mp h
  cases p with
  | eq => exact .inl ⟨hp, h⟩
  | lt =>
    cases h
    exact .inr ⟨hp, nofun⟩
  | gt =>
    cases h
    exact .inr ⟨hp, nofun⟩

theorem ties_thenCompare : ties (thenCompare first second) x y
    = (ties first x y && ties second x y) := by
  rw [Bool.eq_iff_iff, Bool.and_eq_true, ties_iff, ties_iff, ties_iff]
  constructor
  . intro h
    rcases thenCompare_eq_ok h with h | ⟨_, hne⟩
    . exact h
    . exact absurd rfl hne
  . rintro ⟨hfirst, hsecond⟩
    rw [thenCompare_of_eq hfirst, hsecond]

theorem Coherent.thenCompare (hfirst : Coherent first S) (hsecond : Coherent second S)
    : Coherent (thenCompare first second) S where
  refl := by
    intro x hx
    rw [thenCompare_of_eq (hfirst.refl hx), hsecond.refl hx]
  swap := by
    intro x y o hx hy h
    rcases thenCompare_eq_ok h with ⟨heq, h⟩ | ⟨h, hne⟩
    . rw [thenCompare_of_eq (hfirst.swap hx hy heq)]
      exact hsecond.swap hx hy h
    . apply thenCompare_of_ne (hfirst.swap hx hy h)
      rwa [ne_eq, Ordering.swap_eq_eq]
  trans := by
    intro x y z o p hx hy hz hxy hyz ho hp
    -- What the first comparison decides for one of the two pairs, it decides for the outer pair.
    rcases thenCompare_eq_ok hxy with ⟨heq, hxy⟩ | ⟨hxy, hne⟩
    . rcases thenCompare_eq_ok hyz with ⟨heq', hyz⟩ | ⟨hyz, hne'⟩
      . have hq : first x z = .ok .eq := ties_iff.mp (ties_trans hfirst hy hx hz
          (ties_iff.mpr (hfirst.swap hx hy heq)) (ties_iff.mpr heq'))
        rw [thenCompare_of_eq hq]
        exact hsecond.trans hx hy hz hxy hyz ho hp
      . obtain ⟨q, hq, hqle, hqeq⟩ := hfirst.trans hx hy hz heq hyz rfl hp
        have hqne : q ≠ .eq := fun h => hne' (hqeq h).2
        exact ⟨q, thenCompare_of_ne hq hqne, hqle, fun h => absurd h hqne⟩
    . have hyz' : ∃ p', first y z = .ok p' ∧ p'.isLE = true := by
        rcases thenCompare_eq_ok hyz with ⟨heq, _⟩ | ⟨hyz, _⟩
        . exact ⟨.eq, heq, rfl⟩
        . exact ⟨p, hyz, hp⟩
      obtain ⟨p', hyz', hp'⟩ := hyz'
      obtain ⟨q, hq, hqle, hqeq⟩ := hfirst.trans hx hy hz hxy hyz' ho hp'
      have hqne : q ≠ .eq := fun h => hne (hqeq h).1
      exact ⟨q, thenCompare_of_ne hq hqne, hqle, fun h => absurd h hqne⟩

theorem IsStableSort.thenCompare (hfirst : Coherent first S) (hxs : ∀ x ∈ xs, S x)
    (hys : IsStableSort second xs ys) (hzs : IsStableSort first ys zs)
    : IsStableSort (thenCompare first second) xs zs where
  perm := hzs.perm.trans hys.perm
  sorted := by
    rw [List.pairwise_iff_forall_sublist]
    intro x y hxy
    obtain ⟨o, ho, hole⟩ := List.pairwise_iff_forall_sublist.mp hzs.sorted hxy
    by_cases heq : o = .eq
    . subst heq
      have hx : x ∈ ys := hzs.perm.mem_iff.mp (hxy.subset List.mem_cons_self)
      have hself : ties first x x = true :=
        ties_iff.mpr (hfirst.refl (hxs x (hys.perm.mem_iff.mp hx)))
      have hties : [x, y].filter (ties first x) = [x, y] := by
        rw [List.filter_cons_of_pos hself, List.filter_cons_of_pos (ties_iff.mpr ho),
          List.filter_nil]
      -- Elements that are equal for the first comparison come as they came before.
      have hbefore : [x, y].Sublist ys := by
        have hfiltered := hxy.filter (ties first x)
        rw [hties, hzs.stable x hx] at hfiltered
        exact hfiltered.trans List.filter_sublist
      obtain ⟨p, hp, hple⟩ := List.pairwise_iff_forall_sublist.mp hys.sorted hbefore
      exact ⟨p, by rw [thenCompare_of_eq ho, hp], hple⟩
    . exact ⟨o, thenCompare_of_ne ho heq, hole⟩
  stable := by
    intro x hx
    have hboth : ties (Edm.thenCompare first second) x
        = fun y => ties first x y && ties second x y := funext fun y => ties_thenCompare
    have hx' : x ∈ ys := hys.perm.mem_iff.mpr hx
    calc
      zs.filter (ties (Edm.thenCompare first second) x)
          = (zs.filter (ties first x)).filter (ties second x) := by
            rw [hboth, List.filter_filter]
            simp only [Bool.and_comm]
      _ = (ys.filter (ties first x)).filter (ties second x) := by rw [hzs.stable x hx']
      _ = (ys.filter (ties second x)).filter (ties first x) := by
            rw [List.filter_filter, List.filter_filter]
            simp only [Bool.and_comm]
      _ = (xs.filter (ties second x)).filter (ties first x) := by rw [hys.stable x hx]
      _ = xs.filter (ties (Edm.thenCompare first second) x) := by
            rw [hboth, List.filter_filter]

/-! ### Total orders -/

def always (total : β → β → Ordering) (x y : β) : Except Empty Ordering := .ok (total x y)

def leBy (total : β → β → Ordering) (x y : β) : Bool := (total x y).isLE

def arranged (total : β → β → Ordering) (xs : List β) : List β := xs.mergeSort (leBy total)

section

variable {total : β → β → Ordering}

theorem inOrder_always : InOrder (always total) x y ↔ leBy total x y = true := by
  simp [InOrder, always, leBy]

theorem arranged_perm (xs : List β) : (arranged total xs).Perm xs :=
  List.mergeSort_perm xs (leBy total)

theorem arranged_of_pairwise (h : xs.Pairwise fun x y => leBy total x y = true)
    : arranged total xs = xs :=
  List.mergeSort_of_pairwise h

theorem arranged_singleton (x : β) : arranged total [x] = [x] := List.mergeSort_singleton x

variable [Std.TransCmp total]

theorem leBy_trans (x y z : β) (hxy : leBy total x y = true) (hyz : leBy total y z = true)
    : leBy total x z = true :=
  Std.TransCmp.isLE_trans hxy hyz

theorem leBy_or_leBy (x y : β) : (leBy total x y || leBy total y x) = true := by
  have hswap : total y x = (total x y).swap := Std.OrientedCmp.eq_swap
  unfold leBy
  rw [hswap]
  cases total x y <;> rfl

theorem leBy_refl (x : β) : leBy total x x = true := congrArg Ordering.isLE Std.ReflCmp.compare_self

theorem leBy_of_eq_false (h : leBy total x y = false) : leBy total y x = true := by
  have hor : (leBy total x y || leBy total y x) = true := leBy_or_leBy x y
  rwa [h, Bool.false_or] at hor

theorem leBy_right_eq_false (hxz : leBy total x z = false) (hyz : leBy total y z = true)
    : leBy total x y = false := by
  rw [Bool.eq_false_iff] at hxz ⊢
  exact fun hxy => hxz (leBy_trans x y z hxy hyz)

theorem leBy_left_eq_false (hxz : leBy total x z = false) (hxy : leBy total x y = true)
    : leBy total y z = false := by
  rw [Bool.eq_false_iff] at hxz ⊢
  exact fun hyz => hxz (leBy_trans x y z hxy hyz)

theorem leBy_of_mem (h : (x :: xs).Pairwise fun x y => leBy total x y = true) (hy : y ∈ x :: xs)
    : leBy total x y = true := by
  rcases List.mem_cons.mp hy with rfl | hy
  . exact leBy_refl y
  . exact List.rel_of_pairwise_cons h hy

theorem leBy_of_mem_reverse (h : (x :: xs).Pairwise fun x y => leBy total y x = true)
    (hy : y ∈ (x :: xs).reverse) : leBy total y x = true := by
  rcases List.mem_cons.mp (List.mem_reverse.mp hy) with rfl | hy
  . exact leBy_refl y
  . exact List.rel_of_pairwise_cons h hy

theorem lt_eq_not_leBy : (total y x == .lt) = !leBy total x y := by
  have hswap : total y x = (total x y).swap := Std.OrientedCmp.eq_swap
  unfold leBy
  rw [hswap]
  cases total x y <;> rfl

theorem coherent_always : Coherent (always total) S where
  refl := by
    intro x _
    exact congrArg Except.ok Std.ReflCmp.compare_self
  swap := by
    intro x y o _ _ h
    cases h
    exact congrArg Except.ok Std.OrientedCmp.eq_swap
  trans := by
    intro x y z o p _ _ _ hxy hyz ho hp
    cases hxy
    cases hyz
    exact ⟨_, rfl, isLE_of_transCmp ho hp⟩

theorem leBy_of_ties (hxy : ties (always total) x y = true) (hxz : ties (always total) x z = true)
    : leBy total y z = true := by
  have hyz : ties (always total) y z = true :=
    ties_trans (S := fun _ => True) coherent_always trivial trivial trivial hxy hxz
  exact inOrder_always.mp ⟨_, ties_iff.mp hyz, rfl⟩

theorem pairwise_arranged (xs : List β)
    : (arranged total xs).Pairwise fun x y => leBy total x y = true :=
  List.pairwise_mergeSort leBy_trans leBy_or_leBy xs

/-- Equal elements are sorted already, so they are a part of the result, and all of its ties. -/
theorem filter_arranged (xs : List β)
    : (arranged total xs).filter (ties (always total) z) = xs.filter (ties (always total) z) := by
  have hsorted : (xs.filter (ties (always total) z)).Pairwise fun x y => leBy total x y = true := by
    rw [List.pairwise_filter]
    exact List.pairwise_of_forall fun x y hx hy => leBy_of_ties hx hy
  have hpart : (xs.filter (ties (always total) z)).Sublist (arranged total xs) :=
    List.sublist_mergeSort leBy_trans leBy_or_leBy hsorted List.filter_sublist
  have hties := hpart.filter (ties (always total) z)
  rw [List.filter_filter] at hties
  simp only [Bool.and_self] at hties
  exact (hties.eq_of_length ((arranged_perm xs).filter _).length_eq.symm).symm

theorem isStableSort_arranged (xs : List β)
    : IsStableSort (always total) xs (arranged total xs) where
  perm := arranged_perm xs
  sorted := (pairwise_arranged xs).imp inOrder_always.mpr
  stable := fun _ _ => filter_arranged xs

theorem eq_arranged (h : IsStableSort (always total) xs zs) : zs = arranged total xs :=
  h.unique (S := fun _ => True) coherent_always (fun _ _ => trivial) (isStableSort_arranged xs)

theorem filter_merge (hxs : xs.Pairwise fun x y => leBy total x y = true)
    : (xs.merge ys (leBy total)).filter (ties (always total) z)
        = xs.filter (ties (always total) z) ++ ys.filter (ties (always total) z) := by
  induction xs, ys using List.merge.induct (leBy total) with
  | case1 ys => rw [List.nil_merge, List.filter_nil, List.nil_append]
  | case2 xs => rw [List.merge_right, List.filter_nil, List.append_nil]
  | case3 x xs y ys hle ih =>
    rw [List.cons_merge_cons, if_pos hle, List.filter_cons, ih hxs.of_cons]
    cases hx : ties (always total) z x with
    | true => simp [hx]
    | false => simp [hx]
  | case4 x xs y ys hle ih =>
    rw [List.cons_merge_cons, if_neg hle, List.filter_cons, ih hxs]
    split
    . next hy =>
      -- What comes before `y` though it is behind it in the second list is not equal to it.
      have hnone : (x :: xs).filter (ties (always total) z) = [] := by
        rw [List.filter_eq_nil_iff]
        intro w hw hz
        apply hle
        have hwy : leBy total w y = true := leBy_of_ties hz hy
        rcases List.mem_cons.mp hw with rfl | hw
        . exact hwy
        . exact leBy_trans x w y (List.rel_of_pairwise_cons hxs hw) hwy
      rw [hnone, List.filter_cons_of_pos hy]
      rfl
    . next hy => rw [List.filter_cons_of_neg hy]

theorem arranged_append (xs ys : List β)
    : arranged total (xs ++ ys)
        = (arranged total xs).merge (arranged total ys) (leBy total) := by
  refine (eq_arranged ⟨?_, ?_, ?_⟩).symm
  . exact (List.merge_perm_append _).trans ((arranged_perm xs).append (arranged_perm ys))
  . refine List.Pairwise.imp inOrder_always.mpr ?_
    exact List.pairwise_merge leBy_trans leBy_or_leBy _ _ (pairwise_arranged xs)
      (pairwise_arranged ys)
  . intro z _
    rw [filter_merge (pairwise_arranged xs), filter_arranged, filter_arranged, List.filter_append]

end

end Edm
