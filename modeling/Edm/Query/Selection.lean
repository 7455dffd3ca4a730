import Edm.Path

/-!
This module contains the choice of what is written of an entity: which properties are selected and
which navigations are expanded, depending on the navigations that lead to it.
-/

namespace Edm

/-- The selected and the expanded paths, and the navigations from the first entity to the current
one. -/
structure Selection where
  select : List Path
  expand : List Path
  current : Path := []
deriving DecidableEq, Repr

namespace Selection

def expandAll (expand : List Path) : Selection := ⟨[], expand, []⟩

def navigate (s : Selection) (name : String) : Selection :=
  { s with current := s.current ++ [name] }

def back (s : Selection) : Selection := { s with current := s.current.dropLast }

def depth (s : Selection) : Nat := s.current.length

def isStarFor (path candidate : Path) : Bool :=
  path.length == candidate.length && path.getLast? == some "*"
    && path.dropLast.isPrefixOf candidate

/--
Whether a property is selected. It is if there is no selection, if a selected path runs through it
or ends above it, or if all of its siblings are selected.
-/
def isSelected (s : Selection) (name : String) : Bool :=
  let candidate := s.current ++ [name]
  s.select.isEmpty || s.select.any fun path =>
    candidate.isPrefixOf path || path.isPrefixOf candidate || isStarFor path candidate

def isExpanded (s : Selection) (name : String) : Bool :=
  s.expand.any fun path => (s.current ++ [name]).isPrefixOf path

def remaining (s : Selection) : Nat :=
  (s.expand.map List.length).foldl max 0 - s.current.length

theorem length_le_foldl_max {paths : List Path} {path : Path} (h : path ∈ paths) (n : Nat) :
    path.length ≤ (paths.map List.length).foldl max n := by
  induction paths generalizing n with
  | nil => simp at h
  | cons p ps ih =>
    simp only [List.map_cons, List.foldl_cons]
    rcases List.mem_cons.mp h with rfl | h
    · clear ih h
      have mono : ∀ (ls : List Nat) (a b : Nat), a ≤ b → a ≤ ls.foldl max b := by
        intro ls
        induction ls with
        | nil => intro a b hab; simpa using hab
        | cons l ls ih => intro a b hab; exact ih a (max b l) (by omega)
      exact mono _ _ _ (by omega)
    · exact ih h _

theorem remaining_navigate_lt {s : Selection} {name : String} (h : s.isExpanded name = true) :
    (s.navigate name).remaining < s.remaining := by
  simp only [isExpanded, List.any_eq_true] at h
  obtain ⟨path, hmem, hprefix⟩ := h
  have hlen : s.current.length + 1 ≤ path.length := by
    have := (List.isPrefixOf_iff_prefix.mp hprefix).length_le
    simpa using this
  have := length_le_foldl_max hmem 0
  simp only [remaining, navigate, List.length_append, List.length_cons, List.length_nil]
  omega

end Selection

end Edm
