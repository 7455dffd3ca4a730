import Edm.Proofs.Merging

/-!
This module contains the correctness of the way in which records are sorted: a few of them by
insertion, and more of them by merging runs of elements, which are in order already or are sorted in
two halves.
-/

namespace Edm.Sorter

variable {β : Type} {S : β → Prop} {mayGiveUp : Prop} {total : β → β → Ordering} {x y : β}
  {xs ys : List β}

/-! ### Short lists -/

theorem within_sortTwo (hx : S x) (hy : S y)
    : (sortTwo x y).Within S mayGiveUp fun p => [p.1, p.2].Perm [x, y] := by
  refine (within_less hy hx).bind ?_
  rintro (_ | _) _
  . exact List.Perm.refl _
  . exact List.Perm.swap x y []

theorem forall_mem_of_perm (hperm : ys.Perm xs) (hxs : ∀ x ∈ xs, S x) : ∀ y ∈ ys, S y :=
  fun y hy => hxs y (hperm.mem_iff.mp hy)

theorem within_sortFour {a b c d : β} (hall : ∀ x ∈ [a, b, c, d], S x)
    : (sortFour a b c d).Within S mayGiveUp (·.Perm [a, b, c, d]) := by
  obtain ⟨ha, hb, hc, hd⟩ : S a ∧ S b ∧ S c ∧ S d := by simpa using hall
  refine (within_sortTwo ha hb).bind ?_
  rintro ⟨a', b'⟩ hab
  refine (within_sortTwo hc hd).bind ?_
  rintro ⟨c', d'⟩ hcd
  have hperm : [a', b', c', d'].Perm [a, b, c, d] := hab.append hcd
  obtain ⟨ha', hb', hc', hd'⟩ : S a' ∧ S b' ∧ S c' ∧ S d' := by
    simpa using forall_mem_of_perm hperm hall
  refine (within_less hc' ha').bind ?_
  intro isFirst _
  refine (within_less hd' hb').bind ?_
  intro isLast _
  have hmiddle {first x y last : β} (hx : S x) (hy : S y)
      (hfour : [first, x, y, last].Perm [a', b', c', d'])
      : (sortTwo x y >>= fun p => pure [first, p.1, p.2, last]).Within S mayGiveUp
          (·.Perm [a, b, c, d]) := by
    refine (within_sortTwo hx hy).bind fun p hp => ?_
    exact (((hp.append_right [last]).cons first).trans hfour).trans hperm
  have hlast : [c', d', b'].Perm [b', c', d'] := @List.perm_append_comm β [c', d'] [b']
  cases isFirst with
  | false =>
    cases isLast with
    | false => exact hmiddle hb' hc' (List.Perm.refl _)
    | true => exact hmiddle hc' hd' (hlast.cons a')
  | true =>
    cases isLast with
    | false =>
      exact hmiddle ha' hb' ((List.Perm.swap a' c' _).trans ((List.Perm.swap b' c' _).cons a'))
    | true => exact hmiddle ha' hd' ((List.Perm.swap a' c' _).trans (hlast.cons a'))

theorem within_sortFront (four : Bool) (hxs : ∀ x ∈ xs, S x)
    : (sortFront four xs).Within S mayGiveUp fun p => (p.1 ++ p.2).Perm xs := by
  unfold sortFront
  split
  . next a b c d xs =>
    split
    . refine (within_sortFour fun x hx => hxs x (List.mem_append_left xs hx)).bind ?_
      exact fun front hfront => hfront.append_right xs
    . exact List.Perm.refl _
  . exact List.Perm.of_eq (List.take_append_drop 1 xs)

theorem within_sortHalves (hxs : ∀ x ∈ xs, S x)
    : (sortHalves xs).Within S True (·.Perm xs) := by
  unfold sortHalves
  generalize xs.length / 2 = half
  dsimp only
  generalize decide (8 ≤ xs.length) = four
  have hleft : ∀ x ∈ xs.take half, S x := fun x hx => hxs x (List.mem_of_mem_take hx)
  have hright : ∀ x ∈ xs.drop half, S x := fun x hx => hxs x (List.mem_of_mem_drop hx)
  refine (within_sortFront four hleft).bind ?_
  rintro ⟨front, rest⟩ hfront
  refine (within_sortFront four hright).bind ?_
  rintro ⟨front', rest'⟩ hfront'
  have hall := List.forall_mem_append.mp (forall_mem_of_perm hfront hleft)
  have hall' := List.forall_mem_append.mp (forall_mem_of_perm hfront' hright)
  refine (within_insertAll hall.1 hall.2).bind ?_
  intro left hsorted
  refine (within_insertAll hall'.1 hall'.2).bind ?_
  intro right hsorted'
  have hperm := hsorted.trans hfront
  have hperm' := hsorted'.trans hfront'
  refine (within_mergeEnds (forall_mem_of_perm hperm hleft)
    (forall_mem_of_perm hperm' hright)).mono id ?_
  intro zs hzs
  have hboth := hzs.trans (hperm.append hperm')
  rwa [List.take_append_drop] at hboth

section

variable [Std.TransCmp total]

theorem exists_sortTwo (total : β → β → Ordering) [Std.TransCmp total] (x y : β)
    : ∃ x' y', (sortTwo x y).result total = some (x', y') ∧ arranged total [x, y] = [x', y']
        ∧ leBy total x' y' = true := by
  have harranged : arranged total [x, y] = [x].merge [y] (leBy total) := by
    rw [← List.singleton_append, arranged_append, arranged_singleton, arranged_singleton]
  rw [harranged]
  cases hle : leBy total x y with
  | true => exact ⟨x, y, by simp [sortTwo, hle], by simp [hle], hle⟩
  | false => exact ⟨y, x, by simp [sortTwo, hle], by simp [hle], leBy_of_eq_false hle⟩

theorem result_sortFour (a b c d : β)
    : (sortFour a b c d).result total = some (arranged total [a, b, c, d]) := by
  obtain ⟨a', b', hab, harranged, hle⟩ := exists_sortTwo total a b
  obtain ⟨c', d', hcd, harranged', hle'⟩ := exists_sortTwo total c d
  have hmerge : arranged total [a, b, c, d] = [a', b'].merge [c', d'] (leBy total) := by
    rw [← harranged, ← harranged', ← arranged_append]
    rfl
  rw [hmerge, sortFour]
  simp only [result_bind, hab, hcd, Option.bind_some, result_less]
  cases hfirst : leBy total a' c' with
  | true =>
    cases hlast : leBy total b' d' with
    | true =>
      cases hle'' : leBy total b' c' <;>
        simp [sortTwo, hfirst, hlast, hle'']
    | false =>
      have hle'' : leBy total b' c' = false := leBy_right_eq_false hlast hle'
      simp [sortTwo, hfirst, hlast, hle', hle'']
  | false =>
    cases hlast : leBy total b' d' with
    | true =>
      have hle'' : leBy total a' d' = true := leBy_trans a' b' d' hle hlast
      simp [sortTwo, hfirst, hlast, hle, hle'']
    | false =>
      cases hle'' : leBy total a' d' <;>
        simp [sortTwo, hfirst, hlast, hle'']

theorem exists_sortFront (total : β → β → Ordering) [Std.TransCmp total] (four : Bool) (xs : List β)
    : ∃ front rest, front ++ rest = xs
        ∧ (sortFront four xs).result total = some (arranged total front, rest) := by
  unfold sortFront
  split
  . next a b c d xs =>
    split
    . exact ⟨[a, b, c, d], xs, rfl, by simp [result_sortFour]⟩
    . exact ⟨[a], b :: c :: d :: xs, rfl, by simp [arranged_singleton]⟩
  . refine ⟨xs.take 1, xs.drop 1, List.take_append_drop 1 xs, ?_⟩
    have hsorted : arranged total (xs.take 1) = xs.take 1 := by
      cases xs with
      | nil => exact arranged_of_pairwise List.Pairwise.nil
      | cons x xs => exact arranged_singleton x
    rw [hsorted]
    rfl

theorem result_sortHalves (xs : List β)
    : (sortHalves xs).result total = some (arranged total xs) := by
  obtain ⟨front, rest, hleft, hfront⟩ :=
    exists_sortFront total (decide (8 ≤ xs.length)) (xs.take (xs.length / 2))
  obtain ⟨front', rest', hright, hfront'⟩ :=
    exists_sortFront total (decide (8 ≤ xs.length)) (xs.drop (xs.length / 2))
  have hlength
      : (arranged total (front' ++ rest')).length = (arranged total (front ++ rest)).length
        ∨
      (arranged total (front' ++ rest')).length = (arranged total (front ++ rest)).length + 1 := by
    rw [(arranged_perm _).length_eq, (arranged_perm _).length_eq, hleft, hright, List.length_take,
      List.length_drop]
    omega
  have hmerge := result_mergeEnds (pairwise_arranged (front ++ rest))
    (pairwise_arranged (front' ++ rest')) hlength
  rw [← arranged_append, hleft, hright, List.take_append_drop] at hmerge
  simp only [sortHalves, result_bind, hfront, hfront', result_insertAll, Option.bind_some]
  rw [hleft, hright]
  exact hmerge

end

/-! ### Runs -/

theorem within_takeRun (down : Bool) (hx : S x) (hys : ∀ y ∈ ys, S y)
    : (takeRun down x ys).Within S mayGiveUp fun p => p.1 ++ p.2 = ys := by
  induction ys generalizing x with
  | nil => rfl
  | cons y ys ih =>
    rw [List.forall_mem_cons] at hys
    refine (within_less hys.1 hx).bind ?_
    intro answer _
    split
    . exact (ih hys.1 hys.2).map fun p hp => congrArg (y :: ·) hp
    . rfl

theorem within_findRun (hxs : ∀ x ∈ xs, S x)
    : (findRun xs).Within S mayGiveUp fun p => (p.1 ++ p.2).Perm xs := by
  unfold findRun
  split
  . next x y ys =>
    simp only [List.forall_mem_cons] at hxs
    refine (within_less hxs.2.1 hxs.1).bind ?_
    intro down _
    refine (within_takeRun down hxs.2.1 hxs.2.2).bind ?_
    rintro ⟨run, rest⟩ rfl
    rw [within_pure]
    dsimp only
    split
    . exact (List.reverse_perm (x :: y :: run)).append_right rest
    . exact List.Perm.refl _
  . exact List.Perm.of_eq (List.append_nil xs)

theorem within_sortChunk (hxs : ∀ x ∈ xs, S x)
    : (sortChunk xs).Within S True fun p => (p.1 ++ p.2).Perm xs := by
  refine (within_sortHalves fun x hx => hxs x (List.mem_of_mem_take hx)).map ?_
  intro zs hzs
  have hperm := hzs.append_right (xs.drop chunk)
  rwa [List.take_append_drop] at hperm

theorem within_nextRun (least : Nat) (hxs : ∀ x ∈ xs, S x)
    : (nextRun least xs).Within S True fun p => (p.1 ++ p.2).Perm xs := by
  unfold nextRun
  split
  . refine (within_findRun hxs).bind ?_
    rintro ⟨run, rest⟩ hrun
    dsimp only
    split
    . exact hrun
    . exact within_sortChunk hxs
  . exact within_sortChunk hxs

theorem within_sortRuns (least n : Nat) (hxs : ∀ x ∈ xs, S x)
    : (sortRuns least n xs).Within S True (·.Perm xs) := by
  induction n generalizing xs with
  | zero => exact List.Perm.refl xs
  | succ n ih =>
    cases xs with
    | nil => exact List.Perm.nil
    | cons x xs =>
      refine (within_nextRun least hxs).bind ?_
      rintro ⟨run, rest⟩ hrun
      have hall := List.forall_mem_append.mp (forall_mem_of_perm hrun hxs)
      refine (ih hall.2).bind ?_
      intro sorted hsorted
      refine (within_merge hall.1 (forall_mem_of_perm hsorted hall.2)).mono id ?_
      intro zs hzs
      exact (hzs.trans (hsorted.append_left run)).trans hrun

section

variable [Std.TransCmp total]

theorem exists_takeRun (total : β → β → Ordering) [Std.TransCmp total] (down : Bool) (x : β)
    (ys : List β)
    : ∃ run rest, run ++ rest = ys ∧ (takeRun down x ys).result total = some (run, rest)
        ∧ (x :: run).IsChain fun x y => (!leBy total x y) = down := by
  induction ys generalizing x with
  | nil => exact ⟨[], [], rfl, rfl, List.IsChain.singleton x⟩
  | cons y ys ih =>
    obtain ⟨run, rest, rfl, hresult, hrun⟩ := ih y
    by_cases hdown : (!leBy total x y) = down
    . refine ⟨y :: run, rest, rfl, ?_, List.isChain_cons_cons.mpr ⟨hdown, hrun⟩⟩
      simp [takeRun, hdown, hresult]
    . refine ⟨[], y :: (run ++ rest), rfl, ?_, List.IsChain.singleton x⟩
      simp [takeRun, hdown]

theorem pairwise_of_up (h : xs.IsChain fun x y => leBy total x y = true)
    : xs.Pairwise fun x y => leBy total x y = true := by
  have htrans : Trans (fun x y : β => leBy total x y = true) (fun x y => leBy total x y = true)
      (fun x y => leBy total x y = true) := ⟨fun hxy hyz => leBy_trans _ _ _ hxy hyz⟩
  exact List.isChain_iff_pairwise.mp h

theorem pairwise_of_down (h : xs.IsChain fun x y => leBy total x y = false)
    : xs.Pairwise fun x y => leBy total x y = false := by
  have htrans : Trans (fun x y : β => leBy total x y = false) (fun x y => leBy total x y = false)
      (fun x y => leBy total x y = false) :=
    ⟨fun hxy hyz => leBy_right_eq_false hxy (leBy_of_eq_false hyz)⟩
  exact List.isChain_iff_pairwise.mp h

theorem arranged_of_down (h : xs.Pairwise fun x y => leBy total x y = false)
    : arranged total xs = xs.reverse := by
  induction xs with
  | nil => exact arranged_of_pairwise List.Pairwise.nil
  | cons x xs ih =>
    rw [List.pairwise_cons] at h
    have hlast : ([] ++ [x]).merge xs.reverse (leBy total)
        = [].merge xs.reverse (leBy total) ++ [x] :=
      concat_merge fun y hy => h.1 y (List.mem_reverse.mp hy)
    rw [← List.singleton_append, arranged_append, arranged_singleton, ih h.2, List.reverse_append,
      List.reverse_singleton]
    simpa using hlast

theorem exists_findRun (total : β → β → Ordering) [Std.TransCmp total] (hxs : xs ≠ [])
    : ∃ run rest, run ≠ [] ∧ run ++ rest = xs
        ∧ (findRun xs).result total = some (arranged total run, rest) := by
  unfold findRun
  split
  . next x y ys =>
    obtain ⟨run, rest, rfl, hresult, hrun⟩ := exists_takeRun total (!leBy total x y) y ys
    refine ⟨x :: y :: run, rest, by simp, rfl, ?_⟩
    have hchain : (x :: y :: run).IsChain fun a b => (!leBy total a b) = !leBy total x y :=
      List.isChain_cons_cons.mpr ⟨rfl, hrun⟩
    cases hle : leBy total x y with
    | true =>
      have hup : arranged total (x :: y :: run) = x :: y :: run :=
        arranged_of_pairwise (pairwise_of_up (by simpa [hle] using hchain))
      rw [hle, Bool.not_true] at hresult
      simp [hle, hresult, hup]
    | false =>
      have hdown : arranged total (x :: y :: run) = (x :: y :: run).reverse :=
        arranged_of_down (pairwise_of_down (by simpa [hle] using hchain))
      rw [hle, Bool.not_false] at hresult
      simp [hle, hresult, hdown]
  . next hshort =>
    refine ⟨xs, [], hxs, List.append_nil xs, ?_⟩
    cases xs with
    | nil => exact absurd rfl hxs
    | cons x xs =>
      cases xs with
      | nil => simp [arranged_singleton]
      | cons y ys => exact (hshort x y ys rfl).elim

theorem exists_sortChunk (total : β → β → Ordering) [Std.TransCmp total] (hxs : xs ≠ [])
    : ∃ run rest, run ≠ [] ∧ run ++ rest = xs
        ∧ (sortChunk xs).result total = some (arranged total run, rest) := by
  refine ⟨xs.take chunk, xs.drop chunk, ?_, List.take_append_drop chunk xs, ?_⟩
  . simpa [chunk] using hxs
  . simp [sortChunk, result_sortHalves]

theorem exists_nextRun (total : β → β → Ordering) [Std.TransCmp total] (least : Nat) (hxs : xs ≠ [])
    : ∃ run rest, run ≠ [] ∧ run ++ rest = xs
        ∧ (nextRun least xs).result total = some (arranged total run, rest) := by
  unfold nextRun
  split
  . obtain ⟨run, rest, hrun, happend, hresult⟩ := exists_findRun total hxs
    rw [result_bind, hresult, Option.bind_some]
    dsimp only
    split
    . exact ⟨run, rest, hrun, happend, rfl⟩
    . exact exists_sortChunk total hxs
  . exact exists_sortChunk total hxs

theorem result_sortRuns (least n : Nat) (xs : List β) (hn : xs.length ≤ n)
    : (sortRuns least n xs).result total = some (arranged total xs) := by
  induction n generalizing xs with
  | zero =>
    obtain rfl := List.eq_nil_of_length_eq_zero (Nat.le_zero.mp hn)
    exact congrArg some (arranged_of_pairwise List.Pairwise.nil).symm
  | succ n ih =>
    cases xs with
    | nil => exact congrArg some (arranged_of_pairwise List.Pairwise.nil).symm
    | cons x xs =>
      obtain ⟨run, rest, hrun, happend, hresult⟩ :=
        exists_nextRun total least (List.cons_ne_nil x xs)
      have hrest : rest.length ≤ n := by
        have hpos := List.length_pos_of_ne_nil hrun
        rw [← happend, List.length_append] at hn
        omega
      rw [sortRuns, result_bind, hresult, Option.bind_some, ← happend]
      dsimp only
      rw [result_bind, ih rest hrest, Option.bind_some, result_merge]

end

/-! ### All lists -/

theorem within_sort (xs : List β)
    : (sort xs).Within (· ∈ xs) (insertionLimit < xs.length) (·.Perm xs) := by
  unfold sort
  split
  . have hempty : ∀ x ∈ ([] : List β), x ∈ xs := nofun
    exact within_insertAll hempty fun _ hx => hx
  . next hlong =>
    rw [eq_true (Nat.lt_of_not_le hlong)]
    exact within_sortRuns _ _ fun _ hx => hx

theorem sorts_sort (xs : List β) : (sort xs).Sorts xs where
  within := (within_sort xs).mono (fun _ => trivial) fun _ hperm => hperm
  stable := by
    intro total _
    unfold sort
    split
    . have hempty : arranged total [] = [] := arranged_of_pairwise List.Pairwise.nil
      rw [← hempty, result_insertAll]
      rfl
    . exact result_sortRuns _ _ xs (Nat.le_refl _)

end Edm.Sorter
