import Edm.Expr
import Edm.Query.Selection

/-!
This module contains queries of entity sets.
-/

namespace Edm

structure Query where
  filter? : Option Expr := none
  /-- The keys of the ordering, the most significant one first. -/
  orderBy : List OrderKey := []
  top? : Option Nat := none
  skip? : Option Nat := none
  /-- The text of the key of the entity after which the page starts. -/
  skipToken? : Option String := none
  inlineCount : Bool := false
  select : List Path := []
  expand : List Path := []
deriving Inhabited

namespace Query

def selection (q : Query) : Selection := ⟨q.select, q.expand, []⟩

def limit (q : Query) (maxResults : Nat) : Nat :=
  match q.top? with
  | none => maxResults
  | some top => min top maxResults

end Query

end Edm
