import Edm.Proofs.Selecting

/-!
This module contains the laws of going through the navigations of a selection. Whatever is selected
or expanded beneath a navigation can be reached: the navigation is selected or expanded too. More
paths never hide anything, but for the first selected one, which is the end of selecting everything.
Going back undoes a navigation, and so all that has been entered may be left again.
-/

namespace Edm

namespace Path

variable {select more expand : List Path} {path : Path} {name property : String}

theorem Selects.of_beneath (h : Selects select (path ++ [name]) property)
    : Selects select path name := by
  rcases h with hnone | ⟨selected, hmem, hthrough | habove | hstar⟩
  . exact .inl hnone
  . have hprefix : path ++ [name] <+: selected := by
      apply List.IsPrefix.trans _ hthrough
      apply List.prefix_append
    exact .inr ⟨selected, hmem, .inl hprefix⟩
  . -- A path that ends with the property goes through the navigation, all others end above it.
    rcases List.prefix_concat_iff.mp habove with rfl | habove
    . exact .inr ⟨_, hmem, .inl (by simp)⟩
    . exact .inr ⟨selected, hmem, .inr (.inl habove)⟩
  . -- All properties of what the navigation leads to are selected by a path through it.
    subst hstar
    exact .inr ⟨_, hmem, .inl (by simp)⟩

theorem Selects.mono (h : Selects select path name) (hselect : select ≠ [])
    (hmore : select ⊆ more) : Selects more path name := by
  rcases h with hnone | ⟨selected, hmem, hselected⟩
  . contradiction
  . exact .inr ⟨selected, hmore hmem, hselected⟩

theorem Expands.of_beneath (h : Expands expand (path ++ [name])) : Expands expand path := by
  obtain ⟨expanded, hmem, hthrough⟩ := h
  refine ⟨expanded, hmem, ?_⟩
  apply List.IsPrefix.trans _ hthrough
  apply List.prefix_append

theorem Expands.mono (h : Expands expand path) (hmore : expand ⊆ more) : Expands more path := by
  obtain ⟨expanded, hmem, hthrough⟩ := h
  exact ⟨expanded, hmore hmem, hthrough⟩

end Path

namespace Selection

variable {s : Selection} {name property navigation : String}

theorem isSelected_of_navigate (h : (s.navigate name).isSelected property = true)
    : s.isSelected name = true := by
  rw [isSelected_iff] at h ⊢
  exact h.of_beneath

theorem isExpanded_of_navigate (h : (s.navigate name).isExpanded navigation = true)
    : s.isExpanded name = true := by
  apply isExpanded_iff.mpr
  exact (isExpanded_iff.mp h).of_beneath

theorem of_follow {p : Selection → String → Prop}
    (hp : ∀ (s : Selection) name next, p (s.navigate name) next → p s name) {names : Path}
    (h : p ((s.navigate name).follow names) property) : p s name := by
  induction names generalizing s name with
  | nil => exact hp s name property h
  | cons next names ih =>
    have hnext : p (s.navigate name) next := ih h
    exact hp s name next hnext

theorem isSelected_of_follow {names : Path}
    (h : ((s.navigate name).follow names).isSelected property = true)
    : s.isSelected name = true := by
  apply of_follow (p := fun s name => s.isSelected name = true) ?_ h
  intro s name next
  apply isSelected_of_navigate

theorem isExpanded_of_follow {names : Path}
    (h : ((s.navigate name).follow names).isExpanded navigation = true)
    : s.isExpanded name = true := by
  apply of_follow (p := fun s name => s.isExpanded name = true) ?_ h
  intro s name next
  apply isExpanded_of_navigate

theorem back_navigate (s : Selection) (name : String) : (s.navigate name).back = s := by
  simp [navigate, back]

inductive Move where
  | go (name : String)
  | back
deriving DecidableEq, Repr

def move (s : Selection) : Move → Selection
  | .go name => s.navigate name
  | .back => s.back

def walk (s : Selection) (moves : List Move) : Selection := moves.foldl move s

/-- Moves that leave everything again that they enter, what was entered last first. -/
inductive Move.Returns : List Move → Prop where
  | stay : Returns []
  | excursion (name : String) {beneath rest : List Move} (hbeneath : Returns beneath)
      (hrest : Returns rest) : Returns (.go name :: beneath ++ .back :: rest)

theorem walk_append (s : Selection) (moves rest : List Move)
    : s.walk (moves ++ rest) = (s.walk moves).walk rest := by
  apply List.foldl_append

theorem walk_of_returns {moves : List Move} (h : Move.Returns moves) (s : Selection)
    : s.walk moves = s := by
  induction h generalizing s with
  | stay => rfl
  | @excursion name beneath rest _ _ ihbeneath ihrest =>
    calc s.walk (.go name :: beneath ++ .back :: rest)
      _ = ((s.navigate name).walk beneath).back.walk rest := by
        rw [walk_append]
        rfl
      _ = (s.navigate name).back.walk rest := by rw [ihbeneath]
      _ = s.walk rest := by rw [back_navigate]
      _ = s := ihrest s

/--
If anything is selected beneath a navigation, at any depth, then so is the navigation, and likewise
if anything is expanded there. More selected paths keep what was selected, if there were any, and
more expanded paths keep what was expanded; neither has to do with the other. After going through a
navigation and back everything is as before, also if there were excursions from its far end.
-/
theorem navigation_laws (s : Selection)
    : (∀ name names,
        (∀ property,
          ((s.navigate name).follow names).isSelected property = true → s.isSelected name = true)
          ∧
        ∀ navigation,
          ((s.navigate name).follow names).isExpanded navigation = true
            → s.isExpanded name = true)
        ∧
      (∀ more name, s.select ≠ [] → s.select ⊆ more →
        (s.isSelected name = true → { s with select := more }.isSelected name = true)
          ∧
        { s with select := more }.isExpanded name = s.isExpanded name)
        ∧
      (∀ more name, s.expand ⊆ more →
        (s.isExpanded name = true → { s with expand := more }.isExpanded name = true)
          ∧
        { s with expand := more }.isSelected name = s.isSelected name)
        ∧
      (∀ name, (s.navigate name).back = s)
        ∧
      ∀ moves, Move.Returns moves → s.walk moves = s := by
  refine ⟨?_, ?_, ?_, back_navigate s, ?_⟩
  . intro name names
    exact ⟨fun _ => isSelected_of_follow, fun _ => isExpanded_of_follow⟩
  . intro more name hselect hmore
    refine ⟨?_, rfl⟩
    intro hselected
    rw [isSelected_iff] at hselected ⊢
    exact hselected.mono hselect hmore
  . intro more name hmore
    refine ⟨?_, rfl⟩
    intro hexpanded
    apply isExpanded_iff.mpr
    exact (isExpanded_iff.mp hexpanded).mono hmore
  . intro moves hmoves
    exact walk_of_returns hmoves s

/-- The first selected path hides all that it does not lead to. -/
example
    : (⟨[], [], []⟩ : Selection).isSelected "City" = true
        ∧
      (⟨[["Name"]], [], []⟩ : Selection).isSelected "City" = false := by
  decide

/-- All of the items of an order, and what there is to know of their products. -/
def itemsAndProducts : Selection := ⟨[["Items", "*"]], [["Items", "Product"]], []⟩

theorem navigation_laws_items
    : (itemsAndProducts.navigate "Items").isSelected "Sku" = true
        ∧
      itemsAndProducts.isSelected "Items" = true
        ∧
      (itemsAndProducts.navigate "Items").isExpanded "Product" = true
        ∧
      itemsAndProducts.isExpanded "Items" = true
        ∧
      (⟨[["Id"], ["Items", "*"]], [["Items", "Product"]], []⟩ : Selection).isSelected "Items" = true
        ∧
      (⟨[["Items", "*"]], [["Items", "Product"], ["Customer"]], []⟩ : Selection).isExpanded "Items"
        = true
        ∧
      itemsAndProducts.walk [.go "Items", .go "Product", .back, .back, .go "Customer", .back]
        = itemsAndProducts := by
  obtain ⟨hbeneath, hselect, hexpand, _, hreturns⟩ := navigation_laws itemsAndProducts
  have hselected := (hbeneath "Items" []).1 "Sku" (by decide)
  have hexpanded := (hbeneath "Items" []).2 "Product" (by decide)
  have hproduct : Move.Returns [.go "Product", .back] := .excursion "Product" .stay .stay
  have hcustomer : Move.Returns [.go "Customer", .back] := .excursion "Customer" .stay .stay
  refine ⟨by decide, hselected, by decide, hexpanded, ?_, ?_, ?_⟩
  . exact (hselect [["Id"], ["Items", "*"]] "Items" (by decide) (by decide)).1 hselected
  . exact (hexpand [["Items", "Product"], ["Customer"]] "Items" (by decide)).1 hexpanded
  . exact hreturns _ (.excursion "Items" hproduct hcustomer)

end Selection

end Edm
