import Edm.Proofs.Runs
import Edm.Query.Ordering

/-!
This module contains the laws of orderings: ordering neither loses records nor repeats them, and it
fails only if a value cannot be computed or a comparison fails.
-/

namespace Edm

variable {α : Type} {resolve : Shape → Option (Accessor α)} {keys : List OrderKey}
  {rs sorted : List (Record α)} {keyed : List (Keyed α)}
  {sort : List (Keyed α) → Sorter (Keyed α) (List (Keyed α))}

theorem orderedRecords_eq_ok {outcome : Option Failure × Option (List (Keyed α))}
    : orderedRecords outcome = .ok sorted
        ↔ ∃ zs, outcome = (none, some zs) ∧ zs.map (·.2) = sorted := by
  obtain ⟨_ | failure, _ | zs⟩ := outcome <;> simp [orderedRecords]

theorem exists_of_compareAllKeys {ds : List Direction} {as bs : List Value} {failure : Failure}
    (h : (compareAllKeys ds as bs).1 = some failure)
    : ∃ a b, compareKeys a b = .error failure := by
  fun_induction compareAllKeys ds as bs with
  | case1 d ds a as b bs o ho heq ih => exact ih h
  | case2 d ds a as b bs o ho hne => cases h
  | case3 d ds a as b bs failure' hfail ih =>
    cases h
    exact ⟨a, b, hfail⟩
  | case4 => cases h

theorem orderedRecords_error {t : Sorter (Keyed α) (List (Keyed α))} {S : Keyed α → Prop}
    {mayGiveUp : Prop} {P : List (Keyed α) → Prop} {failure : Failure}
    (ht : t.Within S mayGiveUp P)
    (h : orderedRecords (t.run (compareKeyed keys) none) = .error failure)
    : failure = .panicked .inconsistentOrder ∧ mayGiveUp
        ∨ ∃ a b, compareKeys a b = .error failure := by
  have hend := ht.run (compareKeyed keys) none
  cases hrun : t.run (compareKeyed keys) none with
  | mk failure? result? =>
    rw [hrun] at h hend
    cases result? with
    | none =>
      cases h
      exact .inl ⟨rfl, hend⟩
    | some result =>
      cases failure? with
      | none => cases h
      | some failure' =>
        cases h
        obtain ⟨a, b, _, _, hfail⟩ := Sorter.exists_of_run ht (congrArg Prod.fst hrun)
        exact .inr (exists_of_compareAllKeys (told_eq_error.mp hfail))

theorem records_of_keyValues
    (h : rs.mapM (fun r => do return (← keyValues resolve keys r, r)) = .ok keyed)
    : keyed.map (·.2) = rs := by
  have hrecords : keyed.map (·.2) = rs.map id := by
    apply map_eq_map_of_mapM _ h
    intro r keyedRecord hr
    obtain ⟨values, _, hr⟩ := bind_eq_ok.mp hr
    rw [pure_eq_ok] at hr
    rw [← hr, id]
  rwa [List.map_id] at hrecords

theorem orderRecordsBy_perm (hsort : ∀ xs, (sort xs).Sorts xs)
    (h : orderRecordsBy sort resolve keys rs = .ok sorted) : sorted.Perm rs := by
  unfold orderRecordsBy at h
  split at h
  . cases h
    exact List.Perm.refl _
  . obtain ⟨keyed, hkeyed, h⟩ := bind_eq_ok.mp h
    obtain ⟨zs, hrun, rfl⟩ := orderedRecords_eq_ok.mp h
    have hperm := (hsort keyed).within.run (compareKeyed keys) none
    rw [hrun] at hperm
    rw [← records_of_keyValues hkeyed]
    exact List.Perm.map _ hperm

theorem orderRecords_perm (h : orderRecords resolve keys rs = .ok sorted) : sorted.Perm rs :=
  orderRecordsBy_perm Sorter.sorts_sort h

end Edm
