import Edm.Proofs.Graph

/-!
This module contains the laws of what is selected beneath a navigation. If a selected path ends at
the navigation or above it then everything beneath is selected, and the entities at the far end are
shown as if there were no selection. If all that selects the navigation is a `*` beside it then
nothing beneath is selected. Longer paths, which select a part, are left aside.
-/

namespace Edm

variable {α : Type}

namespace Path

/-- There is no selection, or a selected path ends at the end of a path or above it. -/
def Encloses (select : List Path) (path : Path) : Prop :=
  select = [] ∨ ∃ selected ∈ select, selected <+: path

def EndsAt (select : List Path) (path : Path) : Prop :=
  ∀ selected ∈ select, path <+: selected → selected = path

instance (select : List Path) (path : Path) : Decidable (Encloses select path) :=
  inferInstanceAs (Decidable (_ ∨ _))

instance (select : List Path) (path : Path) : Decidable (EndsAt select path) :=
  inferInstanceAs (Decidable (∀ _ ∈ _, _))

variable {select : List Path} {path : Path} {name : String}

theorem EndsAt.not_mem (hends : EndsAt select path) {beneath : Path} (hbeneath : beneath ≠ [])
    : path ++ beneath ∉ select := by
  intro hmem
  have heq := hends (path ++ beneath) hmem (List.prefix_append path beneath)
  exact hbeneath (List.append_right_eq_self.mp heq)

theorem selects_iff (hends : EndsAt select (path ++ [name]))
    : Selects select path name ↔ Encloses select (path ++ [name]) ∨ path ++ ["*"] ∈ select := by
  unfold Selects Encloses
  constructor
  . rintro (hnone | ⟨selected, hmem, hthrough | habove | hstar⟩)
    . exact .inl (.inl hnone)
    . have heq := hends selected hmem hthrough
      exact .inl (.inr ⟨selected, hmem, heq ▸ List.prefix_rfl⟩)
    . exact .inl (.inr ⟨selected, hmem, habove⟩)
    . exact .inr (hstar ▸ hmem)
  . rintro ((hnone | ⟨selected, hmem, habove⟩) | hstar)
    . exact .inl hnone
    . exact .inr ⟨selected, hmem, .inr (.inl habove)⟩
    . exact .inr ⟨_, hstar, .inr (.inr rfl)⟩

theorem selects_beneath_iff (hends : EndsAt select path) {beneath : Path}
    : Selects select (path ++ beneath) name ↔ Encloses select path := by
  unfold Selects Encloses
  rw [List.append_assoc]
  constructor
  . rintro (hnone | ⟨selected, hmem, hthrough | habove | hstar⟩)
    . exact .inl hnone
    . have heq := hends selected hmem ((List.prefix_append _ _).trans hthrough)
      exact .inr ⟨selected, hmem, heq ▸ List.prefix_rfl⟩
    . rcases List.prefix_or_prefix_of_prefix habove (List.prefix_append path _) with h | h
      . exact .inr ⟨selected, hmem, h⟩
      . exact .inr ⟨selected, hmem, hends selected hmem h ▸ List.prefix_rfl⟩
    . rw [hstar, List.append_assoc] at hmem
      exact absurd hmem (hends.not_mem (by simp))
  . rintro (hnone | ⟨selected, hmem, habove⟩)
    . exact .inl hnone
    . exact .inr ⟨selected, hmem, .inr (.inl (habove.trans (List.prefix_append _ _)))⟩

end Path

namespace Selection

open Edm.Path (Selects Encloses EndsAt)

def follow (s : Selection) (names : Path) : Selection := names.foldl navigate s

def everything (s : Selection) : Selection := { s with select := [] }

theorem follow_eq (s : Selection) (names : Path)
    : s.follow names = { s with current := s.current ++ names } := by
  induction names generalizing s with
  | nil =>
    rw [List.append_nil]
    rfl
  | cons name names ih =>
    change (s.navigate name).follow names = _
    rw [ih]
    simp [navigate]

theorem isSelected_iff (s : Selection) (name : String)
    : s.isSelected name = true ↔ Selects s.select s.current name := by
  rw [isSelected_eq_decide s.select s.expand, decide_eq_true_iff]

theorem isSelected_everything (s : Selection) (name : String)
    : s.everything.isSelected name = true := by
  rw [isSelected_iff]
  exact .inl rfl

theorem isSelected_follow_iff {s : Selection} {name : String}
    (hends : EndsAt s.select (s.current ++ [name])) (names : Path) (property : String)
    : ((s.navigate name).follow names).isSelected property = true
        ↔
      Encloses s.select (s.current ++ [name]) := by
  rw [isSelected_iff, follow_eq]
  exact Path.selects_beneath_iff hends

end Selection

namespace Snapshot

open Edm.Path (Encloses EndsAt)

theorem toEntity_everything (s : Snapshot α) (set : EntitySet) (r : Record α)
    {selection : Selection}
    (hall : ∀ names property, (selection.follow names).isSelected property = true)
    : s.toEntity set r selection = s.toEntity set r selection.everything := by
  -- The induction is on the paths that are longer than where the navigation has got to.
  have hlink : ∀ a : Accessor α,
      s.link a r.data selection = s.link a r.data selection.everything := by
    intro a
    funext n
    refine link_congr rfl ?_
    intro hexpanded other
    unfold expand
    congr 1
    funext set
    exact toEntity_everything s set other fun names => hall (n.name :: names)
  rw [toEntity_eq, toEntity_eq]
  have hselected : selection.isSelected = selection.everything.isSelected := by
    funext property
    rw [Selection.isSelected_everything]
    exact hall [] property
  rw [hselected]
  simp only [hlink]
termination_by selection.remaining
decreasing_by exact Selection.remaining_navigate_lt (by assumption)

theorem link_everything (s : Snapshot α) (a : Accessor α) (data : α) {selection : Selection}
    {n : Navigation}
    (hall : ∀ names property,
      ((selection.navigate n.name).follow names).isSelected property = true)
    : s.link a data selection n = s.link a data selection.everything n := by
  refine link_congr rfl ?_
  intro _ other
  unfold expand
  congr 1
  funext set
  exact toEntity_everything s set other hall

end Snapshot

namespace Selection

open Edm.Path (Encloses EndsAt)

/--
Selecting a navigation selects what lies beneath it, at any depth, unless a selected path goes on
there or all that selects the navigation is a `*` beside it. The link is then the one that there is
without a selection. Beneath a navigation that only a `*` selects nothing is selected.
-/
theorem isSelected_beneath {s : Selection} {name : String} (hselected : s.isSelected name = true)
    (hends : EndsAt s.select (s.current ++ [name]))
    : (Encloses s.select (s.current ++ [name]) →
        (∀ names property, ((s.navigate name).follow names).isSelected property = true)
          ∧
        ∀ (shown : Snapshot α) (a : Accessor α) (data : α) (n : Navigation), n.name = name →
          shown.link a data s n = shown.link a data s.everything n)
        ∧
      (¬ Encloses s.select (s.current ++ [name]) →
        s.current ++ ["*"] ∈ s.select
          ∧
        ∀ names property, ((s.navigate name).follow names).isSelected property = false) := by
  constructor
  . intro hencloses
    have hall : ∀ names property,
        ((s.navigate name).follow names).isSelected property = true :=
      fun names property => (isSelected_follow_iff hends names property).mpr hencloses
    refine ⟨hall, ?_⟩
    rintro shown a data n rfl
    exact shown.link_everything a data hall
  . intro hencloses
    rw [isSelected_iff, Path.selects_iff hends] at hselected
    refine ⟨hselected.resolve_left hencloses, ?_⟩
    intro names property
    rw [← Bool.not_eq_true, isSelected_follow_iff hends]
    exact hencloses

/-- A `*` selects the customer and nothing of it. -/
theorem not_isSelected_beneath_star
    : let s : Selection := ⟨[["*"]], [["Customer"]], []⟩
      s.isSelected "Customer" = true
        ∧
      EndsAt s.select (s.current ++ ["Customer"])
        ∧
      (s.navigate "Customer").isSelected "City" = false := by
  decide

end Selection

namespace Partners

/-- The name of a partner and all there is of the other one, who leads back. -/
def nameAndOther : Selection := ⟨[["Name"], ["Other"]], [["Other", "Other"]], []⟩

theorem isSelected_beneath_other
    : nameAndOther.isSelected "Other" = true
        ∧
      Path.EndsAt nameAndOther.select ["Other"]
        ∧
      Path.Encloses nameAndOther.select ["Other"]
        ∧
      ((nameAndOther.navigate "Other").follow ["Other"]).isSelected "Nickname" = true
        ∧
      snapshot.link entry.accessor .ada nameAndOther ⟨"Other", .zeroOrOne, "Partner"⟩
        = snapshot.link entry.accessor .ada nameAndOther.everything
            ⟨"Other", .zeroOrOne, "Partner"⟩ := by
  have hends : Path.EndsAt nameAndOther.select ["Other"] := by decide
  have hencloses : Path.Encloses nameAndOther.select ["Other"] := by decide
  obtain ⟨hall, hlink⟩ := (Selection.isSelected_beneath rfl hends).1 hencloses
  exact ⟨rfl, hends, hencloses, hall ["Other"] "Nickname", hlink snapshot _ _ _ rfl⟩

end Partners

end Edm
