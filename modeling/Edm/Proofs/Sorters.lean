import Mathlib.Data.List.Pairwise
import Mathlib.Order.Antisymmetrization
import Mathlib.Order.Compare
import Mathlib.Order.Extension.Linear
import Edm.Proofs.Sorting
import Edm.Query.Sorter

/-!
This module contains what is known of every way to sort with comparisons that can fail. A sorter
that is right for all total orders meets a comparison that fails if there is one, since what it
learns from the other comparisons is also true of two orders that disagree about such elements. What
it does from there on is left open: it may give up or go on to any end.
-/

namespace Edm

variable {β γ δ ε : Type}

/-- Comparisons as they are told: those without a result fail. -/
def told (cmp : β → β → Option ε × Ordering) (x y : β) : Except ε Ordering :=
  match cmp x y with
  | (none, o) => .ok o
  | (some failure, _) => .error failure

theorem told_eq_error {cmp : β → β → Option ε × Ordering} {x y : β} {failure : ε}
    : told cmp x y = .error failure ↔ (cmp x y).1 = some failure := by
  unfold told
  split
  . next h => simp [h]
  . next h => simp [h]

namespace Sorter

/-- The result if the questions are answered by a total order. -/
def result (total : β → β → Ordering) : Sorter β γ → Option γ
  | done result => some result
  | giveUp => none
  | ask x y next => (next (total x y == .lt)).result total

/-- Only certain elements are compared and only certain results are given, whatever the answers. -/
def Within (S : β → Prop) (mayGiveUp : Prop) (P : γ → Prop) : Sorter β γ → Prop
  | done result => P result
  | giveUp => mayGiveUp
  | ask x y next => S x ∧ S y ∧ ∀ answer, (next answer).Within S mayGiveUp P

/--
No elements are lost, whatever the answers. Those of a total order lead to a result that is sorted,
where equal elements stay in their order.
-/
structure Sorts (t : Sorter β (List β)) (xs : List β) : Prop where
  within : t.Within (· ∈ xs) True (·.Perm xs)
  stable : ∀ (total : β → β → Ordering) [Std.TransCmp total],
    t.result total = some (arranged total xs)

variable {S : β → Prop} {mayGiveUp : Prop} {P Q : γ → Prop} {R : δ → Prop} {t : Sorter β γ}
  {f : γ → Sorter β δ} {g : γ → δ} {total : β → β → Ordering} {x y : β}

/-! ### Sequences -/

theorem bind_eq (t : Sorter β γ) (f : γ → Sorter β δ) : t >>= f = t.bind f := rfl

@[simp]
theorem result_pure (c : γ) : (pure c : Sorter β γ).result total = some c := rfl

@[simp]
theorem result_bind
    : (t >>= f).result total = (t.result total).bind fun c => (f c).result total := by
  rw [bind_eq]
  induction t with
  | done c => rfl
  | giveUp => rfl
  | ask x y next ih => exact ih _

@[simp]
theorem result_map : (g <$> t).result total = (t.result total).map g := by
  change (t >>= fun c => pure (g c)).result total = _
  rw [result_bind]
  cases t.result total <;> rfl

@[simp]
theorem result_less [Std.TransCmp total]
    : (less x y).result total = some (!leBy total y x) := by
  rw [← lt_eq_not_leBy]
  rfl

@[simp]
theorem within_pure {c : γ} : (pure c : Sorter β γ).Within S mayGiveUp P ↔ P c := Iff.rfl

theorem Within.mono {mayGiveUp' : Prop} (ht : t.Within S mayGiveUp P)
    (hgiveUp : mayGiveUp → mayGiveUp') (h : ∀ c, P c → Q c) : t.Within S mayGiveUp' Q := by
  induction t with
  | done c => exact h c ht
  | giveUp => exact hgiveUp ht
  | ask x y next ih => exact ⟨ht.1, ht.2.1, fun answer => ih answer (ht.2.2 answer)⟩

theorem Within.bind (ht : t.Within S mayGiveUp P) (hf : ∀ c, P c → (f c).Within S mayGiveUp R)
    : (t >>= f).Within S mayGiveUp R := by
  rw [bind_eq]
  induction t with
  | done c => exact hf c ht
  | giveUp => exact ht
  | ask x y next ih => exact ⟨ht.1, ht.2.1, fun answer => ih answer (ht.2.2 answer)⟩

theorem Within.map (ht : t.Within S mayGiveUp P) (hg : ∀ c, P c → R (g c))
    : (g <$> t).Within S mayGiveUp R :=
  ht.bind (f := fun c => pure (g c)) hg

theorem within_less (hx : S x) (hy : S y) : (less x y).Within S mayGiveUp fun _ => True :=
  ⟨hx, hy, fun _ => trivial⟩

/-! ### Answers by comparisons -/

def Extends (total : β → β → Ordering) (cmp : β → β → Except ε Ordering) (S : β → Prop) : Prop :=
  ∀ {x y o}, S x → S y → cmp x y = .ok o → total x y = o

section

variable {cmp : β → β → Option ε × Ordering} {failure : ε}

theorem Within.run (ht : t.Within S mayGiveUp P) (cmp : β → β → Option ε × Ordering)
    (failure? : Option ε)
    : match (t.run cmp failure?).2 with
      | some c => P c
      | none => mayGiveUp := by
  induction t generalizing failure? with
  | done c => exact ht
  | giveUp => exact ht
  | ask x y next ih => exact ih _ (ht.2.2 _) _

theorem run_some : (t.run cmp (some failure)).1 = some failure := by
  induction t with
  | done c => rfl
  | giveUp => rfl
  | ask x y next ih => exact ih _

theorem exists_of_run (ht : t.Within S mayGiveUp P) (h : (t.run cmp none).1 = some failure)
    : ∃ x y, S x ∧ S y ∧ told cmp x y = .error failure := by
  induction t with
  | done c => cases h
  | giveUp => cases h
  | ask x y next ih =>
    obtain ⟨hx, hy, hnext⟩ := ht
    rw [run] at h
    cases hcmp : cmp x y with
    | mk failed? o =>
      rw [hcmp] at h
      cases failed? with
      | none => exact ih _ (hnext _) h
      | some failure' =>
        cases run_some.symm.trans h
        exact ⟨x, y, hx, hy, told_eq_error.mpr (congrArg Prod.fst hcmp)⟩

theorem result_of_run (htotal : Extends total (told cmp) S) (ht : t.Within S mayGiveUp P)
    (h : (t.run cmp none).1 = none) : t.result total = (t.run cmp none).2 := by
  induction t with
  | done c => rfl
  | giveUp => rfl
  | ask x y next ih =>
    obtain ⟨hx, hy, hnext⟩ := ht
    rw [run] at h ⊢
    cases hcmp : cmp x y with
    | mk failed? o =>
      rw [hcmp] at h
      cases failed? with
      | none =>
        rw [result, htotal hx hy (show told cmp x y = .ok o by rw [told, hcmp])]
        exact ih _ (hnext _) h
      | some failure =>
        cases run_some.symm.trans h

end

/-! ### Total orders -/

section

variable {cmp : β → β → Except ε Ordering} {z : β}

theorem exists_total {le : β → β → Prop} (hrefl : ∀ x, le x x)
    (htrans : ∀ x y z, le x y → le y z → le x z)
    : ∃ total : β → β → Ordering,
        Std.TransCmp total
          ∧
        (∀ x y, le x y → le y x → total x y = .eq)
          ∧
        ∀ x y, le x y → ¬ le y x → total x y = .lt := by
  let _ : Preorder β := { le := le, le_refl := hrefl, le_trans := htrans }
  let place : β → LinearExtension (Antisymmetrization β (· ≤ ·)) := fun x =>
    toLinearExtension (toAntisymmetrization (· ≤ ·) x)
  have hle : ∀ {x y}, le x y → place x ≤ place y := by
    intro x y h
    exact toLinearExtension.monotone (toAntisymmetrization_le_toAntisymmetrization_iff.mpr h)
  refine ⟨fun x y => compare (place x) (place y), transCmp_of_eq fun _ _ => rfl, ?_, ?_⟩
  . intro x y hxy hyx
    exact compare_eq_iff_eq.mpr (le_antisymm (hle hxy) (hle hyx))
  . intro x y hxy hyx
    refine compare_lt_iff_lt.mpr (lt_of_le_of_ne (hle hxy) ?_)
    intro heq
    exact hyx (toAntisymmetrization_le_toAntisymmetrization_iff.mp (le_of_eq heq.symm))

def Known (cmp : β → β → Except ε Ordering) (S : β → Prop) (x y : β) : Prop :=
  x = y ∨ S x ∧ S y ∧ InOrder cmp x y

theorem Known.trans (hcmp : Coherent cmp S) (hxy : Known cmp S x y) (hyz : Known cmp S y z)
    : Known cmp S x z := by
  rcases hxy with rfl | ⟨hx, hy, hxy⟩
  . exact hyz
  . rcases hyz with rfl | ⟨_, hz, hyz⟩
    . exact .inr ⟨hx, hy, hxy⟩
    . exact .inr ⟨hx, hz, hxy.trans hcmp hx hy hz hyz⟩

theorem Known.inOrder (hcmp : Coherent cmp S) (hx : S x) (h : Known cmp S x y)
    : InOrder cmp x y := by
  rcases h with rfl | ⟨_, _, h⟩
  . exact ⟨.eq, hcmp.refl hx, rfl⟩
  . exact h

theorem exists_extends (le : β → β → Prop) (hcmp : Coherent cmp S) (hrefl : ∀ x, le x x)
    (htrans : ∀ x y z, le x y → le y z → le x z)
    (hle : ∀ {x y}, S x → S y → InOrder cmp x y → le x y)
    (hback : ∀ {x y}, S x → S y → InOrder cmp x y → le y x → InOrder cmp y x)
    : ∃ total : β → β → Ordering,
        Std.TransCmp total
          ∧
        Extends total cmp S
          ∧
        ∀ x y, le x y → ¬ le y x → total x y = .lt := by
  obtain ⟨total, htotal, heq, hlt⟩ := exists_total hrefl htrans
  have hless : ∀ {x y}, S x → S y → cmp x y = .ok .lt → total x y = .lt := by
    intro x y hx hy h
    have hxy : InOrder cmp x y := ⟨.lt, h, rfl⟩
    refine hlt x y (hle hx hy hxy) ?_
    intro hyx
    obtain ⟨o, ho, hole⟩ := hback hx hy hxy hyx
    rw [hcmp.swap hx hy h] at ho
    cases ho
    cases hole
  refine ⟨total, htotal, ?_, hlt⟩
  intro x y o hx hy h
  cases o with
  | lt => exact hless hx hy h
  | eq => exact heq x y (hle hx hy ⟨.eq, h, rfl⟩) (hle hy hx ⟨.eq, hcmp.swap hx hy h, rfl⟩)
  | gt =>
    have hswap : total x y = (total y x).swap := Std.OrientedCmp.eq_swap
    rw [hswap, hless hy hx (hcmp.swap hx hy h)]
    rfl

theorem exists_extends_known (hcmp : Coherent cmp S)
    : ∃ total : β → β → Ordering, Std.TransCmp total ∧ Extends total cmp S := by
  obtain ⟨total, htotal, hextends, _⟩ := exists_extends (Known cmp S) hcmp (fun _ => .inl rfl)
    (fun _ _ _ => Known.trans hcmp) (fun hx hy h => .inr ⟨hx, hy, h⟩)
    (fun _ hy _ h => h.inOrder hcmp hy)
  exact ⟨total, htotal, hextends⟩

/-- What cannot be compared may be in either order. -/
theorem exists_extends_lt (hcmp : Coherent cmp S) (hx : S x) (hy : S y)
    (hfails : ∀ o, cmp x y ≠ .ok o)
    : ∃ total : β → β → Ordering,
        Std.TransCmp total ∧ Extends total cmp S ∧ total x y = .lt := by
  have hunknown : ¬ Known cmp S y x := by
    intro h
    obtain ⟨o, ho, _⟩ := h.inOrder hcmp hy
    exact hfails o.swap (hcmp.swap hy hx ho)
  let le (a b : β) : Prop := Known cmp S a b ∨ Known cmp S a x ∧ Known cmp S y b
  have htrans : ∀ a b c, le a b → le b c → le a c := by
    rintro a b c (hab | ⟨hax, hyb⟩) (hbc | ⟨hbx, hyc⟩)
    . exact .inl (hab.trans hcmp hbc)
    . exact .inr ⟨hab.trans hcmp hbx, hyc⟩
    . exact .inr ⟨hax, hyb.trans hcmp hbc⟩
    . exact .inr ⟨hax, hyc⟩
  have hback : ∀ {a b}, S a → S b → InOrder cmp a b → le b a → InOrder cmp b a := by
    rintro a b ha hb hab (hba | ⟨hbx, hya⟩)
    . exact hba.inOrder hcmp hb
    . exact absurd ((hya.trans hcmp (.inr ⟨ha, hb, hab⟩)).trans hcmp hbx) hunknown
  obtain ⟨total, htotal, hextends, hlt⟩ := exists_extends le hcmp (fun _ => .inl (.inl rfl)) htrans
    (fun ha hb h => .inl (.inr ⟨ha, hb, h⟩)) hback
  refine ⟨total, htotal, hextends, hlt x y (.inr ⟨.inl rfl, .inl rfl⟩) ?_⟩
  rintro (h | ⟨h, _⟩)
  . exact hunknown h
  . exact hunknown h

end

/-! ### Sorting with comparisons that can fail -/

section

variable {cmp : β → β → Option ε × Ordering} {t : Sorter β (List β)} {xs : List β}

/-- A sorter that has met no failure has seen that all elements can be compared. -/
theorem Sorts.exists_of_run (ht : t.Sorts xs) (hcmp : Coherent (told cmp) (· ∈ xs))
    (h : (t.run cmp none).1 = none) (hx : x ∈ xs) (hy : y ∈ xs) : ∃ o, told cmp x y = .ok o := by
  by_contra hfails
  rw [not_exists] at hfails
  have hfails' : ∀ o, told cmp y x ≠ .ok o := by
    intro o ho
    exact hfails o.swap (hcmp.swap hy hx ho)
  -- Two total orders lead to the same result, but one has `x` in front of `y` and one behind it.
  obtain ⟨total, _, hextends, hlt⟩ := exists_extends_lt hcmp hx hy hfails
  obtain ⟨total', _, hextends', hlt'⟩ := exists_extends_lt hcmp hy hx hfails'
  have hsame : arranged total xs = arranged total' xs := by
    have hresult := result_of_run hextends ht.within h
    rw [← result_of_run hextends' ht.within h, ht.stable, ht.stable] at hresult
    exact Option.some.inj hresult
  have hne : x ≠ y := by
    rintro rfl
    exact hfails .eq (hcmp.refl hx)
  let Side (a b : β) : Prop := leBy total a b = true ∧ leBy total' a b = true
    ∨ leBy total b a = true ∧ leBy total' b a = true
  have hsymm : Std.Symm Side := ⟨fun _ _ h => h.symm⟩
  have hsides : (arranged total xs).Pairwise Side :=
    ((pairwise_arranged xs).and (hsame ▸ pairwise_arranged xs)).imp .inl
  have hmem : ∀ {z}, z ∈ xs → z ∈ arranged total xs := (arranged_perm xs).mem_iff.mpr
  have hside : Side x y := hsides.forall (hmem hx) (hmem hy) hne
  rcases hside with ⟨_, hle⟩ | ⟨hle, _⟩
  . have hlt_eq : (total' y x == .lt) = !leBy total' x y := lt_eq_not_leBy
    rw [hlt', hle] at hlt_eq
    cases hlt_eq
  . have hlt_eq : (total x y == .lt) = !leBy total y x := lt_eq_not_leBy
    rw [hlt, hle] at hlt_eq
    cases hlt_eq

theorem Sorts.exists_isStableSort (ht : t.Sorts xs) (hcmp : Coherent (told cmp) (· ∈ xs))
    (h : (t.run cmp none).1 = none)
    : ∃ zs, (t.run cmp none).2 = some zs ∧ IsStableSort (told cmp) xs zs := by
  obtain ⟨total, _, hextends⟩ := exists_extends_known hcmp
  have hresult := result_of_run hextends ht.within h
  rw [ht.stable] at hresult
  have heq : ∀ {x y}, x ∈ xs → y ∈ xs → told cmp x y = .ok (total x y) := by
    intro x y hx hy
    obtain ⟨o, ho⟩ := ht.exists_of_run hcmp h hx hy
    rw [ho, hextends hx hy ho]
  have hmem : ∀ {z}, z ∈ arranged total xs → z ∈ xs := (arranged_perm xs).mem_iff.mp
  refine ⟨_, hresult.symm, arranged_perm xs, ?_, ?_⟩
  . refine (pairwise_arranged xs).imp_of_mem ?_
    intro x y hx hy hle
    exact ⟨_, heq (hmem hx) (hmem hy), hle⟩
  . intro x hx
    have hties : ∀ {y}, y ∈ xs → ties (told cmp) x y = ties (always total) x y := by
      intro y hy
      rw [Bool.eq_iff_iff, ties_iff, ties_iff, heq hx hy, always, Except.ok.injEq, Except.ok.injEq]
    rw [List.filter_congr fun y hy => hties (hmem hy), filter_arranged,
      List.filter_congr fun y hy => hties hy]

end

end Sorter

end Edm
