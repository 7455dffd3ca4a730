import Mathlib.Data.List.Nodup
import Edm.Registry

/-!
This module contains the laws of registrations: names and shapes are never taken twice, so each of
them leads to one registration.
-/

namespace Edm

variable {α β γ : Type}

theorem find?_eq_some_of_nodup [BEq γ] [LawfulBEq γ] {f : β → γ} {bs : List β} {b : β}
    (hnodup : (bs.map f).Nodup) (hb : b ∈ bs)
    : bs.find? (fun other => f other == f b) = some b := by
  induction bs with
  | nil => simp at hb
  | cons other bs ih =>
    rw [List.map_cons, List.nodup_cons] at hnodup
    rcases List.mem_cons.mp hb with rfl | hb
    . rw [List.find?_cons_of_pos (by simp)]
    . have hne : f other ≠ f b := by
        intro heq
        apply hnodup.1
        rw [heq]
        exact List.mem_map_of_mem hb
      rw [List.find?_cons_of_neg (by simpa using hne)]
      exact ih hnodup.2 hb

theorem find?_eq_some_iff_of_nodup [BEq γ] [LawfulBEq γ] {f : β → γ} {bs : List β} {b : β}
    {c : γ} (hnodup : (bs.map f).Nodup)
    : bs.find? (fun other => f other == c) = some b ↔ b ∈ bs ∧ f b = c := by
  constructor
  . intro h
    exact ⟨List.mem_of_find?_eq_some h, by simpa using List.find?_some h⟩
  . rintro ⟨hb, rfl⟩
    exact find?_eq_some_of_nodup hnodup hb

theorem find?_eq_of_perm [BEq γ] [LawfulBEq γ] {f : β → γ} {bs bs' : List β}
    (hnodup : (bs.map f).Nodup) (h : bs.Perm bs') (c : γ)
    : bs.find? (fun other => f other == c) = bs'.find? (fun other => f other == c) := by
  apply Option.ext
  intro b
  rw [find?_eq_some_iff_of_nodup hnodup,
    find?_eq_some_iff_of_nodup ((h.map f).nodup_iff.mp hnodup), h.mem_iff]

namespace Registry

/-- No two sets share a name or a shape, and no two complex types share a shape. -/
structure Distinct (r : Registry α) : Prop where
  setNames : (r.sets.map (·.name)).Nodup
  setShapes : (r.sets.map (·.shape)).Nodup
  complexShapes : (r.complexTypes.map (·.shape)).Nodup

/-- The fields of an accessor of a set have names of their own. -/
def FieldsDistinct (r : Registry α) : Prop :=
  ∀ e ∈ r.sets, (e.accessor.fields.map (·.name)).Nodup

/-- No accessor of a registry has two fields of one name. -/
structure AllFieldsDistinct (r : Registry α) : Prop where
  sets : r.FieldsDistinct
  complexTypes : ∀ e ∈ r.complexTypes, (e.accessor.fields.map (·.name)).Nodup

theorem distinct_empty : ({} : Registry α).Distinct where
  setNames := List.nodup_nil
  setShapes := List.nodup_nil
  complexShapes := List.nodup_nil

theorem set?_of_mem {r : Registry α} {e : SetEntry α} (hr : r.Distinct) (he : e ∈ r.sets)
    : r.set? e.name = some e := by
  exact find?_eq_some_of_nodup hr.setNames he

theorem setOfShape?_of_mem {r : Registry α} {e : SetEntry α} (hr : r.Distinct) (he : e ∈ r.sets)
    : r.setOfShape? e.shape = some e := by
  exact find?_eq_some_of_nodup hr.setShapes he

theorem complexOfShape?_of_mem {r : Registry α} {e : ComplexEntry α} (hr : r.Distinct)
    (he : e ∈ r.complexTypes) : r.complexOfShape? e.shape = some e := by
  exact find?_eq_some_of_nodup hr.complexShapes he

theorem mem_of_set? {r : Registry α} {name : String} {e : SetEntry α} (h : r.set? name = some e)
    : e ∈ r.sets ∧ e.name = name := by
  exact ⟨List.mem_of_find?_eq_some h, by simpa using List.find?_some h⟩

theorem mem_of_setOfShape? {r : Registry α} {shape : Shape} {e : SetEntry α}
    (h : r.setOfShape? shape = some e) : e ∈ r.sets ∧ e.shape = shape := by
  exact ⟨List.mem_of_find?_eq_some h, by simpa using List.find?_some h⟩

theorem mem_of_complexOfShape? {r : Registry α} {shape : Shape} {e : ComplexEntry α}
    (h : r.complexOfShape? shape = some e) : e ∈ r.complexTypes ∧ e.shape = shape := by
  exact ⟨List.mem_of_find?_eq_some h, by simpa using List.find?_some h⟩

/-! ### Changes of the registrations -/

theorem Distinct.addSet? {r r' : Registry α} {e : SetEntry α} (hr : r.Distinct)
    (h : r.addSet? e = some r') : r'.Distinct := by
  unfold Registry.addSet? at h
  split at h
  . cases h
  . next hfree =>
    cases h
    simp only [List.any_eq_true, Bool.or_eq_true, beq_iff_eq, not_exists, not_and, not_or] at hfree
    refine ⟨?_, ?_, hr.complexShapes⟩
    . rw [List.map_append, List.nodup_append]
      refine ⟨hr.setNames, by simp, ?_⟩
      intro name hname name' hname'
      obtain ⟨o, ho, rfl⟩ := List.mem_map.mp hname
      rw [List.map_singleton, List.mem_singleton] at hname'
      rw [hname']
      exact (hfree o ho).1
    . rw [List.map_append, List.nodup_append]
      refine ⟨hr.setShapes, by simp, ?_⟩
      intro shape hshape shape' hshape'
      obtain ⟨o, ho, rfl⟩ := List.mem_map.mp hshape
      rw [List.map_singleton, List.mem_singleton] at hshape'
      rw [hshape']
      exact (hfree o ho).2

theorem Distinct.addComplexType {r : Registry α} (hr : r.Distinct) (e : ComplexEntry α)
    : (r.addComplexType e).Distinct := by
  unfold Registry.addComplexType
  split
  . refine ⟨hr.setNames, hr.setShapes, ?_⟩
    have hshapes : (r.complexTypes.map fun o => if o.shape == e.shape then e else o).map (·.shape)
        = r.complexTypes.map (·.shape) := by
      rw [List.map_map]
      apply List.map_congr_left
      intro o _
      by_cases h : o.shape = e.shape
      . simp [h]
      . simp [h]
    rw [hshapes]
    exact hr.complexShapes
  . next hfree =>
    simp only [List.any_eq_true, beq_iff_eq, not_exists, not_and] at hfree
    refine ⟨hr.setNames, hr.setShapes, ?_⟩
    rw [List.map_append, List.nodup_append]
    refine ⟨hr.complexShapes, by simp, ?_⟩
    intro shape hshape shape' hshape'
    obtain ⟨o, ho, rfl⟩ := List.mem_map.mp hshape
    rw [List.map_singleton, List.mem_singleton] at hshape'
    rw [hshape']
    exact hfree o ho

theorem setRecords_eq (r : Registry α) (name : String) (records : List (Record α))
    : r.setRecords name records
        = { r with sets := r.sets.map fun e =>
              { e with records := if e.name == name then records else e.records } } := by
  unfold Registry.setRecords
  congr 1
  apply List.map_congr_left
  intro e _
  split
  . rfl
  . rfl

theorem Distinct.setRecords {r : Registry α} (hr : r.Distinct) (name : String)
    (records : List (Record α)) : (r.setRecords name records).Distinct := by
  rw [setRecords_eq]
  refine ⟨?_, ?_, hr.complexShapes⟩
  . rw [List.map_map]
    exact hr.setNames
  . rw [List.map_map]
    exact hr.setShapes

end Registry

end Edm
