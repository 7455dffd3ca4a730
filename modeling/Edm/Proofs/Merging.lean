import Mathlib.Algebra.Order.Group.Multiset
import Mathlib.Tactic.Abel
import Edm.Proofs.Sorters

/-!
This module contains the correctness of merging sorted lists from the front, from the back and from
both ends at once. An element is taken from the back of a list just where a merge from the front
would put it, so that all of them agree.
-/

namespace Edm

variable {β : Type}

/-! ### Cuts -/

section

variable {le : β → β → Bool} {x y : β} {xs ys left right left' right' : List β}

/-- If two lists are cut so that a merge takes the parts in front first, it merges them on their
own. -/
theorem merge_append (hle : ∀ x ∈ left, ∀ y ∈ right', le x y = true)
    (hlt : ∀ x ∈ left', ∀ y ∈ right, le x y = false)
    : (left ++ left').merge (right ++ right') le
        = left.merge right le ++ left'.merge right' le := by
  induction left, right using List.merge.induct le with
  | case1 right =>
    induction right with
    | nil => rw [List.nil_merge]; rfl
    | cons y right ih =>
      cases left' with
      | nil => simp
      | cons x left' =>
        have hxy : le x y = false := hlt x List.mem_cons_self y List.mem_cons_self
        have hrest := ih fun x hx y hy => hlt x hx y (List.mem_cons_of_mem _ hy)
        rw [List.nil_append, List.nil_merge] at hrest ⊢
        rw [List.cons_append, List.cons_merge_cons, hxy, if_neg Bool.false_ne_true, hrest]
        rfl
  | case2 left hne =>
    clear hne
    induction left with
    | nil => rw [List.nil_merge]; rfl
    | cons x left ih =>
      cases right' with
      | nil => simp
      | cons y right' =>
        have hxy : le x y = true := hle x List.mem_cons_self y List.mem_cons_self
        have hrest := ih fun x hx => hle x (List.mem_cons_of_mem _ hx)
        rw [List.nil_append, List.merge_right] at hrest ⊢
        rw [List.cons_append, List.cons_merge_cons, hxy, if_pos rfl, hrest]
        rfl
  | case3 x left y right hxy ih =>
    have hrest := ih (fun x hx => hle x (List.mem_cons_of_mem _ hx)) hlt
    rw [List.cons_append] at hrest
    rw [List.cons_append, List.cons_append, List.cons_merge_cons, List.cons_merge_cons,
      if_pos hxy, if_pos hxy, hrest, List.cons_append]
  | case4 x left y right hxy ih =>
    have hrest := ih hle fun x hx y hy => hlt x hx y (List.mem_cons_of_mem _ hy)
    rw [List.cons_append] at hrest
    rw [List.cons_append, List.cons_append, List.cons_merge_cons, List.cons_merge_cons,
      if_neg hxy, if_neg hxy, hrest, List.cons_append]

theorem cons_merge (h : ∀ y ∈ ys, le x y = true)
    : (x :: xs).merge ys le = x :: xs.merge ys le := by
  have hcut : ([x] ++ xs).merge ([] ++ ys) le = [x].merge [] le ++ xs.merge ys le :=
    merge_append (by simpa using h) (by simp)
  simpa using hcut

theorem merge_cons (h : ∀ x ∈ xs, le x y = false)
    : xs.merge (y :: ys) le = y :: xs.merge ys le := by
  have hcut : ([] ++ xs).merge ([y] ++ ys) le = [].merge [y] le ++ xs.merge ys le :=
    merge_append (by simp) (by simpa using h)
  simpa using hcut

theorem concat_merge (h : ∀ y ∈ ys, le x y = false)
    : (xs ++ [x]).merge ys le = xs.merge ys le ++ [x] := by
  have hcut : (xs ++ [x]).merge (ys ++ []) le = xs.merge ys le ++ [x].merge [] le :=
    merge_append (by simp) (by simpa using h)
  simpa using hcut

theorem merge_concat (h : ∀ x ∈ xs, le x y = true)
    : xs.merge (ys ++ [y]) le = xs.merge ys le ++ [y] := by
  have hcut : (xs ++ []).merge (ys ++ [y]) le = xs.merge ys le ++ [].merge [y] le :=
    merge_append (by simpa using h) (by simp)
  simpa using hcut

/-- Two lists are cut in two so that a merge takes all of `left` and `right` first. -/
structure Cut (le : β → β → Bool) (xs ys left right left' right' : List β) : Prop where
  left_append : left ++ left' = xs
  right_append : right ++ right' = ys
  leftFirst : ∀ x ∈ left, ∀ y ∈ right', le x y = true
  rightFirst : ∀ x ∈ left', ∀ y ∈ right, le x y = false

namespace Cut

theorem merge (h : Cut le xs ys left right left' right')
    : xs.merge ys le = left.merge right le ++ left'.merge right' le := by
  rw [← h.left_append, ← h.right_append]
  exact merge_append h.leftFirst h.rightFirst

theorem cons_left (h : Cut le xs ys left right left' right') (hx : ∀ y ∈ ys, le x y = true)
    : Cut le (x :: xs) ys (x :: left) right left' right' where
  left_append := congrArg (x :: ·) h.left_append
  right_append := h.right_append
  leftFirst := by
    refine List.forall_mem_cons.mpr ⟨?_, h.leftFirst⟩
    intro y hy
    exact hx y (h.right_append ▸ List.mem_append_right _ hy)
  rightFirst := h.rightFirst

theorem cons_right (h : Cut le xs ys left right left' right') (hy : ∀ x ∈ xs, le x y = false)
    : Cut le xs (y :: ys) left (y :: right) left' right' where
  left_append := h.left_append
  right_append := congrArg (y :: ·) h.right_append
  leftFirst := h.leftFirst
  rightFirst := by
    intro x hx
    exact List.forall_mem_cons.mpr
      ⟨hy x (h.left_append ▸ List.mem_append_right _ hx), h.rightFirst x hx⟩

theorem concat_left (h : Cut le xs ys left right left' right') (hx : ∀ y ∈ ys, le x y = false)
    : Cut le (xs ++ [x]) ys left right (left' ++ [x]) right' where
  left_append := by rw [← List.append_assoc, h.left_append]
  right_append := h.right_append
  leftFirst := h.leftFirst
  rightFirst := by
    rw [List.forall_mem_append, List.forall_mem_singleton]
    refine ⟨h.rightFirst, ?_⟩
    intro y hy
    exact hx y (h.right_append ▸ List.mem_append_left _ hy)

theorem concat_right (h : Cut le xs ys left right left' right') (hy : ∀ x ∈ xs, le x y = true)
    : Cut le xs (ys ++ [y]) left right left' (right' ++ [y]) where
  left_append := h.left_append
  right_append := by rw [← List.append_assoc, h.right_append]
  leftFirst := by
    intro x hx
    rw [List.forall_mem_append, List.forall_mem_singleton]
    exact ⟨h.leftFirst x hx, hy x (h.left_append ▸ List.mem_append_left _ hx)⟩
  rightFirst := h.rightFirst

theorem exists_mem_of_append {zs zs' : List β} (h : xs ++ ys = zs ++ zs')
    (hlt : zs.length < xs.length) : ∃ x ∈ xs, x ∈ zs' := by
  rcases List.append_eq_append_iff.mp h with ⟨ws, rfl, _⟩ | ⟨ws, rfl, rfl⟩
  . rw [List.length_append] at hlt
    omega
  . cases ws with
    | nil => simp at hlt
    | cons w ws => exact ⟨w, by simp, by simp⟩

theorem eq_append_take {zs zs' : List β} (h : xs ++ ys = zs ++ zs') (hle : xs.length ≤ zs.length)
    : zs = xs ++ ys.take (zs.length - xs.length) :=
  calc
    zs = (zs ++ zs').take zs.length := (List.take_left).symm
    _ = (xs ++ ys).take zs.length := by rw [h]
    _ = xs ++ ys.take (zs.length - xs.length) := by
          rw [List.take_append, List.take_of_length_le hle]

variable {front front' back back' : List β}

theorem length_le (h : Cut le xs ys left right left' right')
    (h' : Cut le xs ys front front' back back')
    (hlength : left.length + right.length ≤ front.length + front'.length)
    : left.length ≤ front.length ∧ right.length ≤ front'.length := by
  have hleft : left ++ left' = front ++ back := h.left_append.trans h'.left_append.symm
  have hright : right ++ right' = front' ++ back' := h.right_append.trans h'.right_append.symm
  constructor
  . by_contra hlt
    obtain ⟨x, hx, hx'⟩ := exists_mem_of_append hleft (by omega)
    obtain ⟨y, hy, hy'⟩ := exists_mem_of_append hright.symm (by omega)
    exact absurd (h.leftFirst x hx y hy') (Bool.eq_false_iff.mp (h'.rightFirst x hx' y hy))
  . by_contra hlt
    obtain ⟨x, hx, hx'⟩ := exists_mem_of_append hleft.symm (by omega)
    obtain ⟨y, hy, hy'⟩ := exists_mem_of_append hright (by omega)
    exact absurd (h'.leftFirst x hx y hy') (Bool.eq_false_iff.mp (h.rightFirst x hx' y hy))

theorem merge_of_length_le (h : Cut le xs ys left right left' right')
    (h' : Cut le xs ys front front' back back')
    (hlength : left.length + right.length ≤ front.length + front'.length)
    : front.merge front' le = left.merge right le
        ++ (left'.take (front.length - left.length)).merge
            (right'.take (front'.length - right.length)) le := by
  obtain ⟨hleft, hright⟩ := h.length_le h' hlength
  have hfront := eq_append_take (h.left_append.trans h'.left_append.symm) hleft
  have hfront' := eq_append_take (h.right_append.trans h'.right_append.symm) hright
  calc
    front.merge front' le
        = (left ++ left'.take (front.length - left.length)).merge
            (right ++ right'.take (front'.length - right.length)) le := by rw [← hfront, ← hfront']
    _ = _ := by
          apply merge_append
          . exact fun x hx y hy => h.leftFirst x hx y (List.mem_of_mem_take hy)
          . exact fun x hx y hy => h.rightFirst x (List.mem_of_mem_take hx) y hy

end Cut

def Begins (le : β → β → Bool) (xs ys left right zs : List β) : Prop :=
  ∃ front front', Cut le xs ys front front' left right ∧ zs = front.merge front' le

def Finishes (le : β → β → Bool) (xs ys left right zs : List β) : Prop :=
  ∃ back back', Cut le xs ys left right back back' ∧ zs = back.merge back' le

variable {zs zs' : List β}

theorem Begins.nil : Begins le xs ys xs ys [] :=
  ⟨[], [], ⟨rfl, rfl, nofun, fun _ _ => nofun⟩, (List.nil_merge []).symm⟩

theorem Finishes.nil : Finishes le xs ys xs ys [] :=
  ⟨[], [], ⟨List.append_nil xs, List.append_nil ys, fun _ _ => nofun, nofun⟩,
    (List.nil_merge []).symm⟩

theorem Begins.cons_left (h : Begins le xs ys left right zs) (hx : ∀ y ∈ ys, le x y = true)
    : Begins le (x :: xs) ys left right (x :: zs) := by
  obtain ⟨front, front', hcut, rfl⟩ := h
  refine ⟨x :: front, front', hcut.cons_left hx, (cons_merge ?_).symm⟩
  exact fun y hy => hx y (hcut.right_append ▸ List.mem_append_left _ hy)

theorem Begins.cons_right (h : Begins le xs ys left right zs) (hy : ∀ x ∈ xs, le x y = false)
    : Begins le xs (y :: ys) left right (y :: zs) := by
  obtain ⟨front, front', hcut, rfl⟩ := h
  refine ⟨front, y :: front', hcut.cons_right hy, (merge_cons ?_).symm⟩
  exact fun x hx => hy x (hcut.left_append ▸ List.mem_append_left _ hx)

theorem Finishes.concat_left (h : Finishes le xs ys left right zs)
    (hx : ∀ y ∈ ys, le x y = false) : Finishes le (xs ++ [x]) ys left right (zs ++ [x]) := by
  obtain ⟨back, back', hcut, rfl⟩ := h
  refine ⟨back ++ [x], back', hcut.concat_left hx, (concat_merge ?_).symm⟩
  exact fun y hy => hx y (hcut.right_append ▸ List.mem_append_right _ hy)

theorem Finishes.concat_right (h : Finishes le xs ys left right zs)
    (hy : ∀ x ∈ xs, le x y = true) : Finishes le xs (ys ++ [y]) left right (zs ++ [y]) := by
  obtain ⟨back, back', hcut, rfl⟩ := h
  refine ⟨back, back' ++ [y], hcut.concat_right hy, (merge_concat ?_).symm⟩
  exact fun x hx => hy x (hcut.left_append ▸ List.mem_append_right _ hx)

theorem Begins.length_eq (h : Begins le xs ys left right zs)
    : (xs.length - left.length) + (ys.length - right.length) = zs.length := by
  obtain ⟨front, front', hcut, rfl⟩ := h
  rw [← hcut.left_append, ← hcut.right_append, List.length_merge]
  simp

theorem Finishes.length_eq (h : Finishes le xs ys left right zs)
    : left.length + right.length + zs.length = xs.length + ys.length := by
  obtain ⟨back, back', hcut, rfl⟩ := h
  rw [← hcut.left_append, ← hcut.right_append, List.length_merge, List.length_append,
    List.length_append]
  omega

/-- A beginning and an end that do not overlap meet, but for what is between them. -/
theorem Begins.merge_eq (h : Begins le xs ys left right zs)
    (h' : Finishes le xs ys left' right' zs')
    (hlength : zs.length + zs'.length ≤ xs.length + ys.length)
    : xs.length - left.length ≤ left'.length
        ∧
      ys.length - right.length ≤ right'.length
        ∧
      xs.merge ys le
        = zs ++ (left.take (left'.length - (xs.length - left.length))).merge
            (right.take (right'.length - (ys.length - right.length))) le ++ zs' := by
  have hsize := h.length_eq
  have hsize' := h'.length_eq
  obtain ⟨front, front', hcut, rfl⟩ := h
  obtain ⟨back, back', hcut', rfl⟩ := h'
  have hxs : xs.length - left.length = front.length := by simp [← hcut.left_append]
  have hys : ys.length - right.length = front'.length := by simp [← hcut.right_append]
  have hle : front.length + front'.length ≤ left'.length + right'.length := by omega
  have hsizes := hcut.length_le hcut' hle
  rw [hxs, hys, ← hcut.merge_of_length_le hcut' hle]
  exact ⟨hsizes.1, hsizes.2, hcut'.merge⟩

end

namespace Sorter

variable {S : β → Prop} {mayGiveUp : Prop} {total : β → β → Ordering} {x y : β}
  {xs ys left right left' right' : List β}

/-! ### Merging from one end -/

theorem insertReversed_eq (x : β) (ys : List β)
    : insertReversed x ys = mergeBy less [x] ys := by
  induction ys with
  | nil => simp [insertReversed, mergeBy]
  | cons y ys ih =>
    simp only [insertReversed, mergeBy, ih]
    rfl

theorem within_mergeBy {second : β → β → Sorter β Bool}
    (hsecond : ∀ x y, S x → S y → (second x y).Within S mayGiveUp fun _ => True)
    (hxs : ∀ x ∈ xs, S x) (hys : ∀ y ∈ ys, S y)
    : (mergeBy second xs ys).Within S mayGiveUp (·.Perm (xs ++ ys)) := by
  induction xs, ys using mergeBy.induct with
  | case1 x xs y ys ihSecond ihFirst =>
    rw [mergeBy]
    rw [List.forall_mem_cons] at hxs hys
    refine (hsecond x y hxs.1 hys.1).bind ?_
    rintro (_ | _) _
    . exact (ihFirst hxs.2 (List.forall_mem_cons.mpr hys)).map fun zs hzs => hzs.cons x
    . refine (ihSecond (List.forall_mem_cons.mpr hxs) hys.2).map fun zs hzs => ?_
      exact (hzs.cons y).trans List.perm_middle.symm
  | case2 ys =>
    rw [mergeBy]
    exact List.Perm.refl ys
  | case3 xs hne =>
    rw [mergeBy]
    . exact List.Perm.of_eq (List.append_nil xs).symm
    . exact hne

theorem within_insertReversed (hx : S x) (hys : ∀ y ∈ ys, S y)
    : (insertReversed x ys).Within S mayGiveUp (·.Perm (x :: ys)) := by
  rw [insertReversed_eq]
  exact within_mergeBy (fun _ _ => within_less) (List.forall_mem_singleton.mpr hx) hys

theorem within_foldlM (hxs : ∀ x ∈ xs, S x) (hys : ∀ y ∈ ys, S y)
    : (xs.foldlM (fun ys x => insertReversed x ys) ys).Within S mayGiveUp
        (·.Perm (xs ++ ys)) := by
  induction xs generalizing ys with
  | nil => exact List.Perm.refl ys
  | cons x xs ih =>
    rw [List.forall_mem_cons] at hxs
    rw [List.foldlM_cons]
    refine (within_insertReversed hxs.1 hys).bind ?_
    intro zs hzs
    have hall : ∀ z ∈ zs, S z := by
      intro z hz
      exact List.forall_mem_cons.mpr ⟨hxs.1, hys⟩ z (hzs.mem_iff.mp hz)
    refine (ih hxs.2 hall).mono id fun ws hws => ?_
    exact (hws.trans (hzs.append_left xs)).trans List.perm_middle

theorem within_insertAll (hxs : ∀ x ∈ xs, S x) (hys : ∀ y ∈ ys, S y)
    : (insertAll xs ys).Within S mayGiveUp (·.Perm (xs ++ ys)) := by
  refine Within.map (within_foldlM hys fun x hx => hxs x (List.mem_reverse.mp hx)) ?_
  intro zs hzs
  calc
    zs.reverse.Perm zs := List.reverse_perm zs
    _ |>.Perm (ys ++ xs.reverse) := hzs
    _ |>.Perm (ys ++ xs) := (List.reverse_perm xs).append_left ys
    _ |>.Perm (xs ++ ys) := List.perm_append_comm

theorem within_merge (hxs : ∀ x ∈ xs, S x) (hys : ∀ y ∈ ys, S y)
    : (merge xs ys).Within S mayGiveUp (·.Perm (xs ++ ys)) := by
  unfold merge
  split
  . exact within_mergeBy (fun _ _ hx hy => within_less hy hx) hxs hys
  . refine Within.map (within_mergeBy (fun _ _ => within_less) ?_ ?_) ?_
    . exact fun y hy => hys y (List.mem_reverse.mp hy)
    . exact fun x hx => hxs x (List.mem_reverse.mp hx)
    . intro zs hzs
      rw [← List.reverse_append] at hzs
      exact (List.reverse_perm zs).trans (hzs.trans (List.reverse_perm _))

section

variable [Std.TransCmp total]

theorem result_mergeFront
    : (mergeBy (fun x y => less y x) xs ys).result total = some (xs.merge ys (leBy total)) := by
  induction xs, ys using mergeBy.induct with
  | case1 x xs y ys ihSecond ihFirst =>
    rw [mergeBy, List.cons_merge_cons]
    cases hle : leBy total x y with
    | true => simp [hle, ihFirst]
    | false => simp [hle, ihSecond]
  | case2 ys => simp [mergeBy]
  | case3 xs hne =>
    rw [mergeBy]
    . simp
    . exact hne

theorem result_mergeBack (hxs : xs.Pairwise fun x y => leBy total y x = true)
    (hys : ys.Pairwise fun x y => leBy total y x = true)
    : (mergeBy less ys xs).result total
        = some (xs.reverse.merge ys.reverse (leBy total)).reverse := by
  induction ys, xs using mergeBy.induct with
  | case1 y ys x xs ihLeft ihRight =>
    rw [mergeBy]
    cases hle : leBy total x y with
    | true =>
      have hlast : ∀ w ∈ (x :: xs).reverse, leBy total w y = true := by
        intro w hw
        exact leBy_trans w x y (leBy_of_mem_reverse hxs hw) hle
      rw [List.reverse_cons (a := y), merge_concat hlast]
      simp [hle, ihRight hxs hys.of_cons]
    | false =>
      have hlast : ∀ w ∈ (y :: ys).reverse, leBy total x w = false := by
        intro w hw
        exact leBy_right_eq_false hle (leBy_of_mem_reverse hys hw)
      rw [List.reverse_cons (a := x), concat_merge hlast]
      simp [hle, ihLeft hxs.of_cons hys]
  | case2 xs => simp [mergeBy]
  | case3 ys hne =>
    rw [mergeBy]
    . simp
    . exact hne

theorem pairwise_reverse_arranged (xs : List β)
    : (arranged total xs).reverse.Pairwise fun x y => leBy total y x = true :=
  List.pairwise_reverse.mpr (pairwise_arranged xs)

theorem result_insertReversed (xs : List β) (x : β)
    : (insertReversed x (arranged total xs).reverse).result total
        = some (arranged total (xs ++ [x])).reverse := by
  have hsingle : [x].Pairwise fun x y => leBy total y x = true := List.pairwise_singleton _ x
  rw [insertReversed_eq, result_mergeBack (pairwise_reverse_arranged xs) hsingle,
    List.reverse_reverse, List.reverse_singleton, arranged_append, arranged_singleton]

theorem result_insertAll (xs ys : List β)
    : (insertAll (arranged total xs) ys).result total = some (arranged total (xs ++ ys)) := by
  have hfold : ∀ ys xs : List β,
      (ys.foldlM (fun zs y => insertReversed y zs) (arranged total xs).reverse).result total
        = some (arranged total (xs ++ ys)).reverse := by
    intro ys
    induction ys with
    | nil => simp
    | cons y ys ih =>
      intro xs
      rw [List.foldlM_cons, result_bind, result_insertReversed, Option.bind_some, ih,
        List.append_assoc, List.singleton_append]
  rw [insertAll, result_map, hfold, Option.map_some, List.reverse_reverse]

theorem result_merge (xs ys : List β)
    : (merge (arranged total xs) (arranged total ys)).result total
        = some (arranged total (xs ++ ys)) := by
  unfold merge
  rw [arranged_append]
  split
  . exact result_mergeFront
  . rw [result_map,
      result_mergeBack (pairwise_reverse_arranged xs) (pairwise_reverse_arranged ys)]
    simp

end

/-! ### Merging from both ends -/

/-- The elements of `zs` have been taken from the fronts of two lists. -/
def Taken (xs ys left right zs : List β) : Prop :=
  ∃ front front', front ++ left = xs ∧ front' ++ right = ys ∧ zs.Perm (front ++ front')

namespace Taken

variable {zs zs' : List β}

theorem nil : Taken xs ys xs ys [] := ⟨[], [], rfl, rfl, List.Perm.nil⟩

theorem cons_left (h : Taken xs ys left right zs) : Taken (x :: xs) ys left right (x :: zs) := by
  obtain ⟨front, front', rfl, rfl, hperm⟩ := h
  exact ⟨x :: front, front', rfl, rfl, hperm.cons x⟩

theorem cons_right (h : Taken xs ys left right zs) : Taken xs (y :: ys) left right (y :: zs) := by
  obtain ⟨front, front', rfl, rfl, hperm⟩ := h
  exact ⟨front, y :: front', rfl, rfl, (hperm.cons y).trans List.perm_middle.symm⟩

theorem of_perm (h : Taken xs ys left right zs) (hperm : zs'.Perm zs)
    : Taken xs ys left right zs' := by
  obtain ⟨front, front', hleft, hright, hzs⟩ := h
  exact ⟨front, front', hleft, hright, hperm.trans hzs⟩

/-- What is taken at both ends and what is between them is all there is, if the ends do not
overlap. -/
theorem perm (h : Taken xs ys left right zs) (h' : Taken xs.reverse ys.reverse left' right' zs')
    (hleft : xs.length - left.length ≤ left'.length)
    (hright : ys.length - right.length ≤ right'.length)
    : (zs ++ (left.take (left'.length - (xs.length - left.length))
        ++ right.take (right'.length - (ys.length - right.length))) ++ zs').Perm (xs ++ ys) := by
  obtain ⟨front, front', rfl, rfl, hzs⟩ := h
  obtain ⟨back, back', hback, hback', hzs'⟩ := h'
  have hmeet {front left left' back : List β} (h : back ++ left' = (front ++ left).reverse)
      (hle : front.length ≤ left'.length)
      : front ++ left = front ++ left.take (left'.length - front.length) ++ back.reverse := by
    have happend : front ++ left = left'.reverse ++ back.reverse := by
      rw [← List.reverse_append, h, List.reverse_reverse]
    have htake := Cut.eq_append_take happend (by simpa using hle)
    rw [List.length_reverse] at htake
    rw [← htake, happend]
  simp only [List.length_append, Nat.add_sub_cancel] at hleft hright ⊢
  have hxs := hmeet hback hleft
  have hys := hmeet hback' hright
  rw [hxs, hys]
  generalize left.take _ = middle
  generalize right.take _ = middle'
  calc
    (zs ++ (middle ++ middle') ++ zs').Perm
        (front ++ front' ++ (middle ++ middle') ++ (back ++ back')) :=
          (hzs.append_right _).append hzs'
    _ |>.Perm (front ++ middle ++ back.reverse ++ (front' ++ middle' ++ back'.reverse)) := by
          simp only [← Multiset.coe_eq_coe, ← Multiset.coe_add, Multiset.coe_reverse]
          abel

end Taken

theorem within_takeEnds (n : Nat) {left right left' right' : List β} (hleft : ∀ x ∈ left, S x)
    (hright : ∀ x ∈ right, S x) (hleft' : ∀ x ∈ left', S x) (hright' : ∀ x ∈ right', S x)
    : (takeEnds n left right left' right').Within S mayGiveUp fun ends =>
        Taken left right ends.left ends.right ends.front
          ∧
        Taken left' right' ends.leftReversed ends.rightReversed ends.back := by
  induction n, left, right, left', right' using takeEnds.induct with
  | case1 n x xs y ys x' xs' y' ys' ih =>
    rw [takeEnds]
    refine (within_less (hright y List.mem_cons_self) (hleft x List.mem_cons_self)).bind ?_
    intro front _
    refine (within_less (hright' y' List.mem_cons_self) (hleft' x' List.mem_cons_self)).bind ?_
    intro back _
    have hchoice {answer : Bool} {zs zs' : List β} (h : ∀ z ∈ zs, S z) (h' : ∀ z ∈ zs', S z)
        : ∀ z ∈ (if answer = true then zs else zs'), S z := by
      split
      . exact h
      . exact h'
    refine (ih front back (hchoice hleft (List.forall_mem_cons.mp hleft).2)
      (hchoice (List.forall_mem_cons.mp hright).2 hright)
      (hchoice (List.forall_mem_cons.mp hleft').2 hleft')
      (hchoice hright' (List.forall_mem_cons.mp hright').2)).map ?_
    rintro ends ⟨hfront, hback⟩
    constructor
    . cases front with
      | false => exact hfront.cons_left
      | true => exact hfront.cons_right
    . refine Taken.of_perm ?_ (List.perm_append_singleton _ _)
      cases back with
      | false => exact hback.cons_right
      | true => exact hback.cons_left
  | case2 n left right left' right' hne =>
    rw [takeEnds]
    . exact ⟨.nil, .nil⟩
    . exact hne

theorem within_mergeEnds (hxs : ∀ x ∈ xs, S x) (hys : ∀ y ∈ ys, S y)
    : (mergeEnds xs ys).Within S True (·.Perm (xs ++ ys)) := by
  unfold mergeEnds
  refine (within_takeEnds xs.length hxs hys (fun x hx => hxs x (List.mem_reverse.mp hx))
    fun y hy => hys y (List.mem_reverse.mp hy)).bind ?_
  rintro ends ⟨hfront, hback⟩
  dsimp only
  split
  . split
    . next hends =>
      dsimp only at hends
      have hperm := hfront.perm hback (by omega) (by omega)
      rw [hends.1, hends.2] at hperm
      simpa using hperm
    . trivial
  . split
    . split
      . next hends =>
        have hperm := hfront.perm hback (by omega) (by omega)
        rw [← hends.1, ← hends.2] at hperm
        simpa using hperm
      . trivial
    . split
      . next hends =>
        have hperm := hfront.perm hback (by omega) (by omega)
        rw [← hends.1, ← hends.2] at hperm
        simpa using hperm
      . trivial

section

variable [Std.TransCmp total]

theorem begins_of_begins (hxs : (x :: xs).Pairwise fun x y => leBy total x y = true)
    (hys : (y :: ys).Pairwise fun x y => leBy total x y = true) {zs : List β}
    (h : Begins (leBy total) (if (!leBy total x y) = true then x :: xs else xs)
      (if (!leBy total x y) = true then ys else y :: ys) left right zs)
    : Begins (leBy total) (x :: xs) (y :: ys) left right
        ((if (!leBy total x y) = true then y else x) :: zs) := by
  cases hle : leBy total x y with
  | true =>
    rw [hle] at h
    exact h.cons_left fun z hz => leBy_trans x y z hle (leBy_of_mem hys hz)
  | false =>
    rw [hle] at h
    exact h.cons_right fun z hz => leBy_left_eq_false hle (leBy_of_mem hxs hz)

theorem finishes_of_finishes (hxs : (x :: xs).Pairwise fun x y => leBy total y x = true)
    (hys : (y :: ys).Pairwise fun x y => leBy total y x = true) {zs : List β}
    (h : Finishes (leBy total) (if (!leBy total x y) = true then xs else x :: xs).reverse
      (if (!leBy total x y) = true then y :: ys else ys).reverse left right zs)
    : Finishes (leBy total) (x :: xs).reverse (y :: ys).reverse left right
        (zs ++ [if (!leBy total x y) = true then x else y]) := by
  cases hle : leBy total x y with
  | true =>
    rw [hle] at h
    rw [List.reverse_cons (a := y)]
    exact h.concat_right fun z hz => leBy_trans z x y (leBy_of_mem_reverse hxs hz) hle
  | false =>
    rw [hle] at h
    rw [List.reverse_cons (a := x)]
    exact h.concat_left fun z hz => leBy_right_eq_false hle (leBy_of_mem_reverse hys hz)

/-- In a total order, what is taken at both ends is what a merge begins and ends with. -/
theorem exists_takeEnds {n : Nat} (hleft : left.Pairwise fun x y => leBy total x y = true)
    (hright : right.Pairwise fun x y => leBy total x y = true)
    (hleft' : left'.Pairwise fun x y => leBy total y x = true)
    (hright' : right'.Pairwise fun x y => leBy total y x = true)
    (hlength : n ≤ left.length ∧ n ≤ right.length ∧ n ≤ left'.length ∧ n ≤ right'.length)
    : ∃ ends,
        (takeEnds n left right left' right').result total = some ends
          ∧
        ends.front.length = n
          ∧
        ends.back.length = n
          ∧
        Begins (leBy total) left right ends.left ends.right ends.front
          ∧
        Finishes (leBy total) left'.reverse right'.reverse ends.leftReversed.reverse
          ends.rightReversed.reverse ends.back := by
  induction n, left, right, left', right' using takeEnds.induct with
  | case1 n x xs y ys x' xs' y' ys' ih =>
    simp only [List.length_cons] at hlength
    obtain ⟨ends, hresult, hfront, hback, hbegins, hfinishes⟩ :=
      ih (!leBy total x y) (!leBy total x' y')
        (by split; exacts [hleft, hleft.of_cons])
        (by split; exacts [hright.of_cons, hright])
        (by split; exacts [hleft'.of_cons, hleft'])
        (by split; exacts [hright', hright'.of_cons])
        (by split <;> split <;> simp only [List.length_cons] <;> omega)
    rw [takeEnds]
    simp only [result_bind, result_less, Option.bind_some, hresult]
    refine ⟨_, rfl, ?_, ?_, begins_of_begins hleft hright hbegins,
      finishes_of_finishes hleft' hright' hfinishes⟩
    . simp [hfront]
    . simp [hback]
  | case2 n left right left' right' hne =>
    have hzero : n = 0 := by
      by_contra hn
      obtain ⟨n, rfl⟩ := Nat.exists_eq_succ_of_ne_zero hn
      obtain ⟨x, xs, rfl⟩ := List.exists_cons_of_length_pos (l := left) (by omega)
      obtain ⟨y, ys, rfl⟩ := List.exists_cons_of_length_pos (l := right) (by omega)
      obtain ⟨x', xs', rfl⟩ := List.exists_cons_of_length_pos (l := left') (by omega)
      obtain ⟨y', ys', rfl⟩ := List.exists_cons_of_length_pos (l := right') (by omega)
      exact hne n x xs y ys x' xs' y' ys' rfl rfl rfl rfl rfl
    rw [takeEnds]
    . exact ⟨_, rfl, hzero.symm, hzero.symm, .nil, .nil⟩
    . exact hne

theorem result_mergeEnds (hxs : xs.Pairwise fun x y => leBy total x y = true)
    (hys : ys.Pairwise fun x y => leBy total x y = true)
    (hlength : ys.length = xs.length ∨ ys.length = xs.length + 1)
    : (mergeEnds xs ys).result total = some (xs.merge ys (leBy total)) := by
  obtain ⟨ends, hresult, hfront, hback, hbegins, hfinishes⟩ := exists_takeEnds (n := xs.length) hxs
    hys (List.pairwise_reverse.mpr hxs) (List.pairwise_reverse.mpr hys)
    ⟨Nat.le_refl _, by omega, by simp, by simp; omega⟩
  rw [List.reverse_reverse, List.reverse_reverse] at hfinishes
  obtain ⟨hleft, hright, hmerge⟩ := hbegins.merge_eq hfinishes (by omega)
  have hsize := hbegins.length_eq
  have hsize' := hfinishes.length_eq
  simp only [List.length_reverse] at hleft hright hmerge hsize'
  rw [mergeEnds, result_bind, hresult, Option.bind_some, hmerge]
  generalize hk : ends.leftReversed.length - (xs.length - ends.left.length) = k
  generalize hk' : ends.rightReversed.length - (ys.length - ends.right.length) = k'
  dsimp only
  split
  . obtain ⟨rfl, rfl⟩ : k = 0 ∧ k' = 0 := by omega
    rw [if_pos (by dsimp only; omega)]
    simp
  . split
    . obtain ⟨rfl, rfl⟩ : k = 1 ∧ k' = 0 := by omega
      rw [if_pos (by dsimp only; omega)]
      simp
    . obtain ⟨rfl, rfl⟩ : k = 0 ∧ k' = 1 := by omega
      rw [if_pos (by dsimp only; omega)]
      simp

end

end Sorter

end Edm
